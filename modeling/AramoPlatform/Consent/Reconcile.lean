import AramoPlatform.Consent.Answers

/-!
# Reconciling two records

When two records of one human are merged, the consent of the merged-away record
is replayed on the survivor: one new grant under `import`, dated now, for every
scope whose latest row, of whatever source, is a grant. Terms, channel limits,
dates and the denials of other sources stay behind.
-/

namespace AramoPlatform.Consent

open Lib List

structure RepointArgs where
  tenantId : Nat
  fromRecordId : Nat
  toRecordId : Nat
  operationId : Nat
  actorId : Option Nat
  deriving DecidableEq

/-- `ORDER BY occurred_at DESC, created_at DESC`. -/
def effectiveOrder (a b : ConsentEvent) : Prop :=
  b.occurredAt < a.occurredAt ∨ (b.occurredAt = a.occurredAt ∧ b.createdAt ≤ a.createdAt)

instance : DecidableRel effectiveOrder := fun a b =>
  inferInstanceAs (Decidable
    (b.occurredAt < a.occurredAt ∨ (b.occurredAt = a.occurredAt ∧ b.createdAt ≤ a.createdAt)))

instance : Std.Total effectiveOrder := ⟨fun a b => by simp only [effectiveOrder]; omega⟩

instance : IsTrans ConsentEvent effectiveOrder :=
  ⟨fun a b c => by simp only [effectiveOrder]; omega⟩

/-- The row that `DISTINCT ON (scope)` keeps. -/
def effectiveRow (rows : List ConsentEvent) (scope : ConsentScope) : Option ConsentEvent :=
  ((ofScope scope rows).insertionSort effectiveOrder).head?

/-- `ORDER BY scope`. -/
def scopesByName : List ConsentScope :=
  [.aiProcessing, .contacting, .crossTenantVisibility, .matching, .profileStorage, .recording,
    .resumeProcessing, .transcription]

/-- The replay of a grant on the survivor. -/
def reconcileGrant (args : RepointArgs) (now clock id : Nat) (e : ConsentEvent) : ConsentEvent where
  id := id
  tenantId := args.tenantId
  talentRecordId := args.toRecordId
  scope := e.scope
  action := .granted
  capturedByActorId := args.actorId
  capturedMethod := .imported
  consentVersion := e.consentVersion
  occurredAt := now
  expiresAt := none
  metadata := ⟨none, some args.operationId⟩
  createdAt := clock

/-- The rows of the survivor that the operation has appended. -/
def reconciledBy (args : RepointArgs) (e : ConsentEvent) : Bool :=
  e.tenantId == args.tenantId && e.talentRecordId == args.toRecordId &&
    e.metadata.reconcileOperation == some args.operationId

def alreadyReconciled (args : RepointArgs) (events : List ConsentEvent) (scope : ConsentScope) :
    Bool :=
  events.any fun e => reconciledBy args e && e.scope == scope

/-- One iteration of the loop over the effective rows. -/
def repointScope (args : RepointArgs) (now clock : Nat) (effective :
    ConsentScope → Option ConsentEvent)
    (done : ConsentDb × List Nat) (scope : ConsentScope) : ConsentDb × List Nat :=
  match effective scope with
  | none => done
  | some e =>
    if e.action != .granted || alreadyReconciled args done.1.events scope then done
    else
      ({ done.1 with
          events := done.1.events ++ [reconcileGrant args now clock done.1.nextId e]
          nextId := done.1.nextId + 1 },
        done.2 ++ [done.1.nextId])

/-- `repointTalentRecordRefs`: the ledger and the ids of the appended rows. -/
def repointTalentRecordRefs (db : ConsentDb) (now clock : Nat) (args : RepointArgs) :
    ConsentDb × List Nat :=
  let effective := effectiveRow (talentRows db.events args.tenantId args.fromRecordId)
  scopesByName.foldl (repointScope args now clock effective) (db, [])

/-- `deleteReconcileGrants`: the ledger and the number of rows removed. -/
def deleteReconcileGrants (db : ConsentDb) (args : RepointArgs) : ConsentDb × Nat :=
  ({ db with events := db.events.filter fun e => !reconciledBy args e },
    db.events.countP (reconciledBy args))

/-! ## What the move appends -/

variable {calendar : Calendar} {args : RepointArgs} {now clock : Nat} {db : ConsentDb}
  {effective : ConsentScope → Option ConsentEvent} {scope : ConsentScope}
  {rows added : List ConsentEvent}

/-- A scope is replayed when its latest row on the merged-away record is a grant, and it
was not replayed before by this operation. -/
def replays (args : RepointArgs) (effective : ConsentScope → Option ConsentEvent)
    (events : List ConsentEvent) (scope : ConsentScope) : Bool :=
  (effective scope).any (fun e => e.action == .granted) && !alreadyReconciled args events scope

/-- What is appended for a scope. -/
structure Replay (args : RepointArgs) (now : Nat) (scope : ConsentScope) (x : ConsentEvent) :
    Prop where
  tenant : x.tenantId = args.tenantId
  talent : x.talentRecordId = args.toRecordId
  scope_eq : x.scope = scope
  granted : x.action = .granted
  source : x.capturedMethod = .imported
  dated : x.occurredAt = now
  unrestricted : x.metadata = ⟨none, some args.operationId⟩

/-- The appended rows, for the scopes gone through. -/
structure Appended (args : RepointArgs) (now : Nat) (replayed : ConsentScope → Bool)
    (added : List ConsentEvent) : Prop where
  all_replays : ∀ x ∈ added, Replay args now x.scope x
  one : ∀ scope, replayed scope = true → ∃ x, ofScope scope added = [x]
  none : ∀ scope, replayed scope = false → ofScope scope added = []

theorem ofScope_append (a b : List ConsentEvent) :
    ofScope scope (a ++ b) = ofScope scope a ++ ofScope scope b :=
  filter_append a b

theorem ofScope_singleton (x : ConsentEvent) :
    ofScope scope [x] = if x.scope = scope then [x] else [] := by
  simp [ofScope, filter_cons]

theorem Replay.reconciledBy {x : ConsentEvent} (h : Replay args now scope x) :
    reconciledBy args x = true := by
  simp [Consent.reconciledBy, h.tenant, h.talent, h.unrestricted]

theorem alreadyReconciled_append {events : List ConsentEvent} {x : ConsentEvent}
    (h : x.scope ≠ scope) :
    alreadyReconciled args (events ++ [x]) scope = alreadyReconciled args events scope := by
  simp [alreadyReconciled, h]

theorem replays_iff {events : List ConsentEvent} :
    replays args effective events scope = true ↔
      (∃ e, effective scope = some e ∧ e.action = .granted) ∧
        alreadyReconciled args events scope = false := by
  rw [replays, Bool.and_eq_true, Bool.not_eq_true']
  cases effective scope <;> simp

theorem repointScope_of_not_replays {done : ConsentDb × List Nat}
    (h : replays args effective done.1.events scope = false) :
    repointScope args now clock effective done scope = done := by
  unfold repointScope
  cases heff : effective scope with
  | none => rfl
  | some e =>
    have hskip : (e.action != .granted || alreadyReconciled args done.1.events scope) = true := by
      simp only [replays, heff, Option.any_some] at h
      cases hgrant : e.action == ConsentAction.granted <;> simp_all
    dsimp only
    rw [hskip, if_pos rfl]

theorem repointScope_of_replays (now clock : Nat) {done : ConsentDb × List Nat}
    (h : replays args effective done.1.events scope = true) :
    ∃ e, effective scope = some e ∧ e.action = .granted ∧
      (repointScope args now clock effective done scope).1.events =
        done.1.events ++ [reconcileGrant args now clock done.1.nextId e] := by
  obtain ⟨⟨e, heff, hgrant⟩, hnew⟩ := replays_iff.mp h
  refine ⟨e, heff, hgrant, ?_⟩
  have htake : (e.action != .granted || alreadyReconciled args done.1.events scope) = false := by
    rw [hgrant, hnew]
    rfl
  unfold repointScope
  rw [heff]
  dsimp only
  rw [htake, if_neg Bool.false_ne_true]

theorem ofScope_cons (x : ConsentEvent) (added : List ConsentEvent) :
    ofScope scope (x :: added) = (if x.scope = scope then [x] else []) ++ ofScope scope added := by
  rw [← ofScope_singleton]
  exact ofScope_append [x] added

/-- One more scope is replayed. -/
theorem Appended.cons {replayed replayed' : ConsentScope → Bool} {x : ConsentEvent}
    (h : Appended args now replayed added) (hx : Replay args now x.scope x)
    (hbefore : replayed x.scope = false) (hhere : replayed' x.scope = true)
    (hother : ∀ scope, scope ≠ x.scope → replayed' scope = replayed scope) :
    Appended args now replayed' (x :: added) := by
  constructor
  · intro y hy
    rcases mem_cons.mp hy with rfl | hy
    · exact hx
    · exact h.all_replays y hy
  · intro scope hscope
    rw [ofScope_cons]
    by_cases hsc : x.scope = scope
    · rw [if_pos hsc, ← hsc, h.none _ hbefore]
      exact ⟨_, rfl⟩
    · rw [if_neg hsc, nil_append]
      exact h.one scope (hother scope (Ne.symm hsc) ▸ hscope)
  · intro scope hscope
    rw [ofScope_cons]
    by_cases hsc : x.scope = scope
    · rw [← hsc, hhere] at hscope
      cases hscope
    · rw [if_neg hsc, nil_append]
      exact h.none scope (hother scope (Ne.symm hsc) ▸ hscope)

theorem repointScopes_events (args : RepointArgs) (now clock : Nat)
    (effective : ConsentScope → Option ConsentEvent)
    (heffective : ∀ scope e, effective scope = some e → e.scope = scope)
    (scopes : List ConsentScope) (hnd : scopes.Nodup) (done : ConsentDb × List Nat) :
    ∃ added, (scopes.foldl (repointScope args now clock effective) done).1.events =
        done.1.events ++ added ∧
      Appended args now
        (fun scope => decide (scope ∈ scopes) && replays args effective done.1.events scope)
        added := by
  induction scopes generalizing done with
  | nil => exact ⟨[], by simp, by simp, by simp, fun _ _ => rfl⟩
  | cons sc rest ih =>
    obtain ⟨hnot, hrest⟩ := nodup_cons.mp hnd
    obtain ⟨added, hadded, happ⟩ := ih hrest (repointScope args now clock effective done sc)
    rw [foldl_cons]
    cases hreplays : replays args effective done.1.events sc with
    | true =>
      -- the scope is replayed: one more row, of this scope
      obtain ⟨e, heff, hgrant, hevents⟩ := repointScope_of_replays now clock hreplays
      rw [hevents] at hadded happ
      have hscope : (reconcileGrant args now clock done.1.nextId e).scope = sc :=
        heffective sc e heff
      refine ⟨reconcileGrant args now clock done.1.nextId e :: added, ?_,
        happ.cons ⟨rfl, rfl, rfl, rfl, rfl, rfl, rfl⟩ ?_ ?_ fun scope hne => ?_⟩
      · rw [hadded, append_assoc]
        rfl
      · simp [hscope, hnot]
      · simp [hscope, hreplays]
      · rw [hscope] at hne
        rw [replays, replays, alreadyReconciled_append (hscope.symm ▸ hne.symm)]
        simp [hne]
    | false =>
      rw [repointScope_of_not_replays hreplays] at hadded happ ⊢
      have hsame : (fun scope => decide (scope ∈ rest) &&
          replays args effective done.1.events scope) = fun scope =>
            decide (scope ∈ sc :: rest) && replays args effective done.1.events scope := by
        funext scope
        by_cases hsc : scope = sc
        · rw [hsc, hreplays, Bool.and_false, Bool.and_false]
        · simp [hsc]
      exact ⟨added, hadded, hsame ▸ happ⟩

theorem effectiveRow_scope {e : ConsentEvent} (h : effectiveRow rows scope = some e) :
    e.scope = scope := by
  have hmem := mem_of_head? h
  rw [mem_insertionSort] at hmem
  simp only [ofScope, mem_filter, beq_iff_eq] at hmem
  exact hmem.2

theorem mem_scopesByName (scope : ConsentScope) : scope ∈ scopesByName := by
  cases scope <;> decide

/-- The scopes that the move replays. -/
def replayed (db : ConsentDb) (args : RepointArgs) (scope : ConsentScope) : Bool :=
  replays args (effectiveRow (talentRows db.events args.tenantId args.fromRecordId)) db.events scope

theorem repoint_events (db : ConsentDb) (now clock : Nat) (args : RepointArgs) :
    ∃ added, (repointTalentRecordRefs db now clock args).1.events = db.events ++ added ∧
      Appended args now (replayed db args) added := by
  obtain ⟨added, hevents, happ⟩ := repointScopes_events args now clock
    (effectiveRow (talentRows db.events args.tenantId args.fromRecordId))
    (fun _ _ h => effectiveRow_scope h) scopesByName (by decide) (db, [])
  refine ⟨added, hevents, happ.all_replays, fun scope h => ?_, fun scope h => ?_⟩
  · refine happ.one scope ?_
    rw [Bool.and_eq_true, decide_eq_true_eq]
    exact ⟨mem_scopesByName scope, h⟩
  · refine happ.none scope ?_
    have hnot : replays args (effectiveRow (talentRows db.events args.tenantId args.fromRecordId))
        db.events scope = false := h
    rw [hnot, Bool.and_false]

theorem Appended.rows_survivor {replayed : ConsentScope → Bool} (h :
    Appended args now replayed added) :
    talentRows added args.tenantId args.toRecordId = added := by
  refine filter_eq_self.mpr fun x hx => ?_
  have hx := h.all_replays x hx
  simp [hx.tenant, hx.talent]

theorem Appended.rows_merged {replayed : ConsentScope → Bool}
    (h : Appended args now replayed added) (hne : args.fromRecordId ≠ args.toRecordId) :
    talentRows added args.tenantId args.fromRecordId = [] := by
  refine filter_eq_nil_iff.mpr fun x hx hp => ?_
  have hx := h.all_replays x hx
  simp only [Bool.and_eq_true, beq_iff_eq] at hp
  exact hne (hp.2.symm.trans hx.talent)

/-! ## What the two records say together -/

/-- The latest row of the scope is a grant. Of rows at one instant the first stored
counts. -/
def LatestGranted (rows : List ConsentEvent) (scope : ConsentScope) : Prop :=
  ∃ e, LeadsSort effectiveOrder (ofScope scope rows) e ∧ e.action = .granted

/-- An import row that is older than the move. -/
def OldImport (now : Nat) (e : ConsentEvent) : Prop :=
  e.capturedMethod = .imported ∧ e.occurredAt < now

/-- The merged-away record's grant of the scope counts on the survivor: it is the latest
row of the scope there, and no source of the survivor denies the scope, old import rows
apart. -/
structure Supplied (now : Nat) (survivor merged : List ConsentEvent) (scope : ConsentScope) :
    Prop where
  granted : LatestGranted merged scope
  undenied : ∀ e ∈ latestPerSource (ofScope scope survivor), isDenial e = true → OldImport now e

/-- A scope with its prerequisites. -/
def scopesFor (scope : ConsentScope) : List ConsentScope := scope :: scopeDependencyChain scope

/-- Every scope that is asked for stands on the survivor or is supplied. -/
def Reached (now : Nat) (survivor merged : List ConsentEvent) (scope : ConsentScope) : Prop :=
  ∀ dep ∈ scopesFor scope, Stands survivor dep ∨ Supplied now survivor merged dep

/-- No source of the survivor excludes the channel, but by an old import row where the
merged-away record has consented to contacting. -/
def ChannelReached (now : Nat) (survivor merged : List ConsentEvent) (channel : ContactChannel) :
    Prop :=
  ∀ e ∈ latestPerSource (grantsOf .contacting survivor), admits channel e = false →
    LatestGranted merged .contacting ∧ OldImport now e

/-- The dates that count for contacting: those of the survivor's grants, and the day of the
move where the merged-away record has consented. -/
def Dated (now : Nat) (survivor merged : List ConsentEvent) (date : Nat) : Prop :=
  (∃ g ∈ grantsOf .contacting survivor, g.occurredAt = date) ∨
    (LatestGranted merged .contacting ∧ date = now)

/-- The merged-away record has the scope by itself, and no source of the survivor denies it. -/
structure HeldByMerged (survivor merged : List ConsentEvent) (scope : ConsentScope) : Prop where
  stands : ∀ dep ∈ scopesFor scope, Stands merged dep
  undenied : ∀ e ∈ latestPerSource (ofScope scope survivor), isDenial e = false

/-- The grants that a record may be contacted by on the channel before the move. -/
def ContactingGrant (survivor merged : List ConsentEvent) (channel : ContactChannel)
    (g : ConsentEvent) : Prop :=
  (g ∈ grantsOf .contacting survivor ∧ (∀ dep ∈ scopesFor .contacting, Stands survivor dep) ∧
      AdmitsChannel survivor channel) ∨
    (g ∈ grantsOf .contacting merged ∧ HeldByMerged survivor merged .contacting ∧
      AdmitsChannel merged channel)

/-- What the two records give together, one of them gives alone. For contacting, whatever
date counts together, a grant of that record lasts as long. -/
structure NothingJoined (calendar : Calendar) (now : Nat) (survivor merged : List ConsentEvent) :
    Prop where
  scopes : ∀ operation : ConsentCheckOperation, operation.requiredScope ≠ .contacting →
    Reached now survivor merged operation.requiredScope →
      (∀ dep ∈ scopesFor operation.requiredScope, Stands survivor dep) ∨
        HeldByMerged survivor merged operation.requiredScope
  contacting : Reached now survivor merged .contacting →
    ∀ channel, ChannelReached now survivor merged channel →
      ∀ date, Dated now survivor merged date →
        ∀ instant, isStale calendar date instant = false →
          ∃ g, ContactingGrant survivor merged channel g ∧
            isStale calendar g.occurredAt instant = false

section Rows

variable {merged : List ConsentEvent} {instant : Nat}

theorem ofScope_mem {x : ConsentEvent} (h : x ∈ ofScope scope rows) :
    x ∈ rows ∧ x.scope = scope := by
  simpa [ofScope] using h

theorem grantsOf_append (a b : List ConsentEvent) :
    grantsOf scope (a ++ b) = grantsOf scope a ++ grantsOf scope b :=
  filter_append a b

theorem forall_scopesFor {p : ConsentScope → Prop} :
    (∀ dep ∈ scopesFor scope, p dep) ↔ (∀ dep ∈ scopeDependencyChain scope, p dep) ∧ p scope := by
  rw [scopesFor, forall_mem_cons, and_comm]

theorem anyLatest_eq_false {p : ConsentEvent → Bool} :
    anyLatest p rows = false ↔ ∀ e ∈ latestPerSource rows, p e = false := by
  simp [anyLatest]

theorem grants_ne_nil (h : Stands rows .contacting) : grantsOf .contacting rows ≠ [] := by
  obtain ⟨e, he, hgrant⟩ := any_eq_true.mp (anyLatest_granted h.some_row h.no_denial)
  have hmem := (mem_filter.mp (isLatest_of_latest (mem_latestPer.mp he)).1).1
  obtain ⟨hin, hscope⟩ := ofScope_mem hmem
  exact ne_nil_of_mem (mem_filter.mpr ⟨hin, by rw [hscope, eq_of_beq hgrant]; rfl⟩)

/-- The latest grant is within the window when some grant is. -/
theorem freshGrant_iff (hne : grantsOf .contacting rows ≠ []) :
    FreshGrant calendar instant rows ↔
      ∃ g ∈ grantsOf .contacting rows, isStale calendar g.occurredAt instant = false := by
  obtain ⟨y, hy⟩ := Option.isSome_iff_exists.mp (latest_isSome (t := (·.occurredAt)).mpr hne)
  obtain ⟨hmem, hmax⟩ := isLatest_of_latest hy
  have hlatest : findLatestGrantForScope rows .contacting = some y := hy
  simp only [FreshGrant, hlatest, Option.some.injEq, forall_eq']
  constructor
  · exact fun hfresh => ⟨y, hmem, hfresh⟩
  · rintro ⟨g, hg, hfresh⟩
    have hle := hmax g hg
    simp only [isStale, decide_eq_false_iff_not, Nat.not_lt] at hfresh ⊢
    exact hfresh.trans hle

theorem latestGranted_iff :
    LatestGranted rows scope ↔
      ∃ e, effectiveRow rows scope = some e ∧ e.action = .granted := by
  simp only [LatestGranted, effectiveRow, head?_insertionSort_iff]

theorem not_reached_of_no_row (hrows : ofScope scope rows = [])
    (hmerged : ofScope scope merged = []) :
    ¬ Reached now rows merged scope := by
  intro hreached
  rcases hreached scope mem_cons_self with hstands | hsupplied
  · exact hstands.some_row hrows
  · obtain ⟨e, he, -⟩ := latestGranted_iff.mp hsupplied.granted
    rw [effectiveRow, hmerged] at he
    cases he

end Rows

/-! ## The check after the move -/

section Moved

variable {merged : List ConsentEvent} {replayed : ConsentScope → Bool} {instant : Nat}
  {channel : ContactChannel}

theorem Appended.mem_ofScope (h : Appended args now replayed added) {x : ConsentEvent}
    (hx : ofScope scope added = [x]) : Replay args now scope x := by
  have hmem : x ∈ ofScope scope added := by
    rw [hx]
    exact mem_singleton_self x
  obtain ⟨hin, hscope⟩ := ofScope_mem hmem
  have := h.all_replays x hin
  rwa [hscope] at this

theorem Appended.grants_eq (h : Appended args now replayed added) :
    grantsOf scope added = ofScope scope added := by
  refine filter_congr fun x hx => ?_
  rw [(h.all_replays x hx).granted]
  simp

section

variable (h : Appended args now replayed added)
  (hreplayed : ∀ scope, replayed scope = true ↔ LatestGranted merged scope)

include h hreplayed

theorem replayed_of_not {scope : ConsentScope} (hoff : ¬ LatestGranted merged scope) :
    ofScope scope added = [] :=
  h.none scope (Bool.eq_false_iff.mpr fun hon => hoff ((hreplayed scope).mp hon))

theorem exists_replay {scope : ConsentScope} (hon : LatestGranted merged scope) :
    ∃ x, ofScope scope added = [x] ∧ Replay args now scope x := by
  obtain ⟨x, hx⟩ := h.one scope ((hreplayed scope).mpr hon)
  exact ⟨x, hx, h.mem_ofScope hx⟩

/-- A replay without `p` takes the place of an old import row. -/
theorem anyLatest_moved_iff {p : ConsentEvent → Bool} {l : List ConsentEvent}
    (hp : ∀ x, Replay args now scope x → p x = false) :
    anyLatest p (l ++ ofScope scope added) = false ↔
      ∀ e ∈ latestPerSource l, p e = true → LatestGranted merged scope ∧ OldImport now e := by
  by_cases hon : LatestGranted merged scope
  · obtain ⟨x, hx, hreplay⟩ := exists_replay h hreplayed hon
    rw [hx, anyLatest, latestPerSource, any_latestPer_append_singleton l (hp x hreplay),
      any_eq_false]
    refine forall₂_congr fun e _ => ?_
    rw [hreplay.source, hreplay.dated]
    cases p e <;> simp [hon, OldImport]
  · rw [replayed_of_not h hreplayed hon, append_nil, anyLatest_eq_false]
    refine forall₂_congr fun e _ => ?_
    cases p e <;> simp [hon]

theorem stands_moved_iff :
    Stands (rows ++ added) scope ↔ Stands rows scope ∨ Supplied now rows merged scope := by
  have hdenials : anyLatest isDenial (ofScope scope (rows ++ added)) = false ↔
      ∀ e ∈ latestPerSource (ofScope scope rows), isDenial e = true →
        LatestGranted merged scope ∧ OldImport now e := by
    rw [ofScope_append]
    exact anyLatest_moved_iff h hreplayed fun x hx => by simp [isDenial, hx.granted]
  by_cases hon : LatestGranted merged scope
  · obtain ⟨x, hx, -⟩ := exists_replay h hreplayed hon
    have hrow : ofScope scope (rows ++ added) ≠ [] := by simp [ofScope_append, hx]
    constructor
    · intro hstands
      exact .inr ⟨hon, fun e he hd => (hdenials.mp hstands.no_denial e he hd).2⟩
    · rintro (hown | hsupplied)
      · refine ⟨hrow, hdenials.mpr fun e he hd => ?_⟩
        rw [anyLatest_eq_false.mp hown.no_denial e he] at hd
        cases hd
      · exact ⟨hrow, hdenials.mpr fun e he hd => ⟨hon, hsupplied.undenied e he hd⟩⟩
  · have hrows : ofScope scope (rows ++ added) = ofScope scope rows := by
      rw [ofScope_append, replayed_of_not h hreplayed hon, append_nil]
    constructor
    · rintro ⟨hne, hno⟩
      rw [hrows] at hne hno
      exact .inl ⟨hne, hno⟩
    · rintro (⟨hne, hno⟩ | hsupplied)
      · exact ⟨hrows ▸ hne, hrows ▸ hno⟩
      · exact absurd hsupplied.granted hon

theorem admits_moved_iff :
    AdmitsChannel (rows ++ added) channel ↔ ChannelReached now rows merged channel := by
  unfold AdmitsChannel ChannelReached
  rw [grantsOf_append, h.grants_eq, anyLatest_moved_iff h hreplayed]
  · simp
  · intro x hx
    simp [admits, hx.unrestricted]

theorem fresh_moved_iff (hstands : Stands (rows ++ added) .contacting) :
    FreshGrant calendar instant (rows ++ added) ↔
      ∃ date, Dated now rows merged date ∧ isStale calendar date instant = false := by
  rw [freshGrant_iff (grants_ne_nil hstands), grantsOf_append, h.grants_eq]
  constructor
  · rintro ⟨g, hg, hfresh⟩
    rcases mem_append.mp hg with hg | hg
    · exact ⟨g.occurredAt, .inl ⟨g, hg, rfl⟩, hfresh⟩
    · by_cases hon : LatestGranted merged .contacting
      · exact ⟨g.occurredAt, .inr ⟨hon, (h.all_replays g (ofScope_mem hg).1).dated⟩, hfresh⟩
      · rw [replayed_of_not h hreplayed hon] at hg
        cases hg
  · rintro ⟨date, ⟨g, hg, rfl⟩ | ⟨hon, rfl⟩, hfresh⟩
    · exact ⟨g, mem_append_left _ hg, hfresh⟩
    · obtain ⟨x, hx, hreplay⟩ := exists_replay h hreplayed hon
      refine ⟨x, mem_append_right _ (hx ▸ mem_singleton_self x), ?_⟩
      rwa [hreplay.dated]

end

end Moved

/-! ## Repeating and reversing the move -/

theorem alreadyReconciled_of_mem {events : List ConsentEvent} {x : ConsentEvent} (hx : x ∈ events)
    (h : Replay args now scope x) : alreadyReconciled args events scope = true :=
  any_eq_true.mpr ⟨x, hx, by simp [h.reconciledBy, h.scope_eq]⟩

theorem foldl_repointScope_of_not_replays (scopes : List ConsentScope) (done : ConsentDb × List Nat)
    (h : ∀ scope ∈ scopes, replays args effective done.1.events scope = false) :
    scopes.foldl (repointScope args now clock effective) done = done := by
  induction scopes with
  | nil => rfl
  | cons sc rest ih =>
    rw [foldl_cons, repointScope_of_not_replays (h sc mem_cons_self)]
    exact ih fun scope hscope => h scope (mem_cons_of_mem _ hscope)

/-- The move, made again under its operation id at any later time, changes nothing. -/
theorem repoint_repeat (hne : args.fromRecordId ≠ args.toRecordId) (now' clock' : Nat) :
    repointTalentRecordRefs (repointTalentRecordRefs db now clock args).1 now' clock' args =
      ((repointTalentRecordRefs db now clock args).1, []) := by
  obtain ⟨added, hevents, happ⟩ := repoint_events db now clock args
  have hmerged : talentRows (repointTalentRecordRefs db now clock args).1.events args.tenantId
      args.fromRecordId = talentRows db.events args.tenantId args.fromRecordId := by
    rw [hevents, talentRows_append, happ.rows_merged hne, append_nil]
  rw [repointTalentRecordRefs, hmerged]
  refine foldl_repointScope_of_not_replays _ _ fun scope _ => ?_
  rw [hevents, Bool.eq_false_iff]
  intro hreplays
  obtain ⟨hgrant, hnew⟩ := replays_iff.mp hreplays
  -- replayed the first time, or reconciled before
  cases hfirst : replayed db args scope with
  | true =>
    obtain ⟨x, hx⟩ := happ.one scope hfirst
    have hmem : x ∈ added := (ofScope_mem (hx ▸ mem_singleton_self x)).1
    rw [alreadyReconciled_of_mem (mem_append_right _ hmem) (happ.mem_ofScope hx)] at hnew
    cases hnew
  | false =>
    have hold : alreadyReconciled args db.events scope = false := by
      rw [alreadyReconciled, any_append, Bool.or_eq_false_iff] at hnew
      exact hnew.1
    rw [replayed, replays_iff.mpr ⟨hgrant, hold⟩] at hfirst
    cases hfirst

/-- No row of the survivor carries the operation's id. -/
def FreshOperation (db : ConsentDb) (args : RepointArgs) : Prop :=
  ∀ e ∈ talentRows db.events args.tenantId args.toRecordId,
    e.metadata.reconcileOperation ≠ some args.operationId

theorem replayed_iff (hfresh : FreshOperation db args) :
    replayed db args scope = true ↔
      LatestGranted (talentRows db.events args.tenantId args.fromRecordId) scope := by
  have hnew : alreadyReconciled args db.events scope = false := by
    rw [alreadyReconciled, any_eq_false]
    intro e he hdup
    simp only [reconciledBy, Bool.and_eq_true, beq_iff_eq] at hdup
    obtain ⟨⟨⟨htenant, htalent⟩, hop⟩, -⟩ := hdup
    exact hfresh e (mem_filter.mpr ⟨he, by simp [htenant, htalent]⟩) hop
  rw [replayed, replays_iff, latestGranted_iff, and_iff_left hnew]

theorem rows_after_reversal (db : ConsentDb) (now clock : Nat) (args : RepointArgs) :
    talentRows (deleteReconcileGrants (repointTalentRecordRefs db now clock args).1 args).1.events
        args.tenantId args.toRecordId =
      (talentRows db.events args.tenantId args.toRecordId).filter fun e =>
        e.metadata.reconcileOperation != some args.operationId := by
  obtain ⟨added, hevents, happ⟩ := repoint_events db now clock args
  have hdrop : added.filter (fun e => !reconciledBy args e) = [] := by
    refine filter_eq_nil_iff.mpr fun x hx hp => ?_
    rw [(happ.all_replays x hx).reconciledBy] at hp
    cases hp
  rw [deleteReconcileGrants, hevents]
  dsimp only
  rw [filter_append, hdrop, append_nil, talentRows, talentRows, filter_filter,
    filter_filter]
  refine filter_congr fun e _ => ?_
  rw [reconciledBy]
  cases e.tenantId == args.tenantId <;> cases e.talentRecordId == args.toRecordId <;>
    simp [bne]

/-- Every answer about the survivor is what it was. -/
structure AnswersRestored (calendar : Calendar) (talentRecordId : Nat)
    (before after : List ConsentEvent) : Prop where
  check : ∀ instant operation channel,
    resolveConsentState calendar instant talentRecordId after operation channel =
      resolveConsentState calendar instant talentRecordId before operation channel
  state : ∀ instant, resolveAllScopes instant after = resolveAllScopes instant before
  history : ∀ scope limit cursor,
    resolveHistory after scope limit cursor = resolveHistory before scope limit cursor

theorem restored_iff_fresh :
    AnswersRestored calendar args.toRecordId (talentRows db.events args.tenantId args.toRecordId)
        (talentRows
          (deleteReconcileGrants (repointTalentRecordRefs db now clock args).1 args).1.events
          args.tenantId args.toRecordId) ↔
      FreshOperation db args := by
  rw [rows_after_reversal, FreshOperation]
  generalize talentRows db.events args.tenantId args.toRecordId = before
  constructor
  · intro h e he hop
    -- a row that the reversal takes is missing from a history long enough to show it
    have hlength := congrArg (·.events.length) (h.history none before.length none)
    rw [resolveHistory_length (length_filter_le _ _), resolveHistory_length le_rfl,
      length_filter_eq_length_iff] at hlength
    have hkept := hlength e he
    rw [hop] at hkept
    simp at hkept
  · intro h
    have hself : before.filter (fun e => e.metadata.reconcileOperation != some args.operationId) =
        before := by
      refine filter_eq_self.mpr fun e he => ?_
      simpa using h e he
    rw [hself]
    exact ⟨fun _ _ _ => rfl, fun _ => rfl, fun _ _ _ => rfl⟩

/-! ## The whole move -/

/-- The move does not widen consent, is made once, and is undone by its reversal. -/
structure ReconcileKeepsConsent (calendar : Calendar) (db : ConsentDb) (now clock : Nat)
    (args : RepointArgs) : Prop where
  noWidening : ∀ instant (operation : ConsentCheckOperation) channel,
    (resolveConsentState calendar instant args.toRecordId
      (talentRows (repointTalentRecordRefs db now clock args).1.events args.tenantId
        args.toRecordId) operation channel).allows = true →
    (resolveConsentState calendar instant args.toRecordId
      (talentRows db.events args.tenantId args.toRecordId) operation channel).allows = true ∨
    ((resolveConsentState calendar instant args.fromRecordId
        (talentRows db.events args.tenantId args.fromRecordId) operation channel).allows = true ∧
      computeMostRestrictiveStateForScope (talentRows db.events args.tenantId args.toRecordId)
        operation.requiredScope ≠ .denied)
  once : ∀ now' clock',
    (repointTalentRecordRefs (repointTalentRecordRefs db now clock args).1 now' clock' args).1 =
      (repointTalentRecordRefs db now clock args).1
  undone : AnswersRestored calendar args.toRecordId
    (talentRows db.events args.tenantId args.toRecordId)
    (talentRows (deleteReconcileGrants (repointTalentRecordRefs db now clock args).1 args).1.events
      args.tenantId args.toRecordId)

/-- **What the check allows after the move**, in terms of the two ledgers. -/
theorem allows_after_iff (hfresh : FreshOperation db args) {instant : Nat}
    {operation : ConsentCheckOperation} {channel : Option ContactChannel} :
    (resolveConsentState calendar instant args.toRecordId
        (talentRows (repointTalentRecordRefs db now clock args).1.events args.tenantId
          args.toRecordId) operation channel).allows = true ↔
      Reached now (talentRows db.events args.tenantId args.toRecordId)
          (talentRows db.events args.tenantId args.fromRecordId) operation.requiredScope ∧
        (operation.requiredScope = .contacting →
          (∃ date, Dated now (talentRows db.events args.tenantId args.toRecordId)
              (talentRows db.events args.tenantId args.fromRecordId) date ∧
            isStale calendar date instant = false) ∧
          ∃ c, channel = some c ∧ ChannelReached now
            (talentRows db.events args.tenantId args.toRecordId)
            (talentRows db.events args.tenantId args.fromRecordId) c) := by
  obtain ⟨added, hevents, happ⟩ := repoint_events db now clock args
  have hon : ∀ scope, replayed db args scope = true ↔
      LatestGranted (talentRows db.events args.tenantId args.fromRecordId) scope :=
    fun _ => replayed_iff hfresh
  rw [resolveConsentState_allows_iff, hevents, talentRows_append, happ.rows_survivor, ← and_assoc,
    ← forall_scopesFor (p := Stands _), Reached]
  simp only [stands_moved_iff happ hon]
  refine and_congr_right fun hreached => ?_
  rw [ContactingTerms]
  refine forall_congr' fun hscope => ?_
  have hstands := (stands_moved_iff happ hon).mpr (hreached _ mem_cons_self)
  rw [hscope] at hstands
  simp only [fresh_moved_iff happ hon hstands, admits_moved_iff happ hon]

theorem permits_iff {rows : List ConsentEvent} {instant : Nat} {talentRecordId : Nat}
    {operation : ConsentCheckOperation} {channel : Option ContactChannel} :
    (resolveConsentState calendar instant talentRecordId rows operation channel).allows = true ↔
      (∀ dep ∈ scopesFor operation.requiredScope, Stands rows dep) ∧
        ContactingTerms calendar instant rows operation.requiredScope channel := by
  rw [resolveConsentState_allows_iff, ← and_assoc, ← forall_scopesFor (p := Stands rows)]

theorem contacted_iff {rows : List ConsentEvent} {instant : Nat} {talentRecordId : Nat}
    {operation : ConsentCheckOperation} {c : ContactChannel}
    (hscope : operation.requiredScope = .contacting) :
    (resolveConsentState calendar instant talentRecordId rows operation (some c)).allows = true ↔
      (∀ dep ∈ scopesFor .contacting, Stands rows dep) ∧ AdmitsChannel rows c ∧
        ∃ g ∈ grantsOf .contacting rows, isStale calendar g.occurredAt instant = false := by
  rw [permits_iff, hscope]
  refine and_congr_right fun hstands => ?_
  have hgrants := grants_ne_nil (hstands .contacting mem_cons_self)
  simp only [ContactingTerms, forall_true_left, freshGrant_iff hgrants, Option.some.injEq,
    exists_eq_left', and_comm]

theorem not_denied_iff {rows : List ConsentEvent} :
    computeMostRestrictiveStateForScope rows scope ≠ .denied ↔
      ∀ e ∈ latestPerSource (ofScope scope rows), isDenial e = false := by
  rw [Ne, scopeState_denied_iff, Bool.not_eq_true, anyLatest_eq_false]

/-- **Reconciling two records**: the move never widens consent, can be repeated and can be
undone exactly when what the two ledgers give together one of them gives alone, and no row
of the survivor carries the operation's id. -/
theorem reconcile_keeps_consent_iff (hne : args.fromRecordId ≠ args.toRecordId) :
    ReconcileKeepsConsent calendar db now clock args ↔
      NothingJoined calendar now (talentRows db.events args.tenantId args.toRecordId)
          (talentRows db.events args.tenantId args.fromRecordId) ∧
        FreshOperation db args := by
  constructor
  · intro h
    have hfresh := restored_iff_fresh.mp h.undone
    refine ⟨⟨fun operation hnot hreached => ?_,
      fun hreached c hc date hdate instant hlast => ?_⟩, hfresh⟩
    · have hafter := h.noWidening 0 operation none ((allows_after_iff hfresh).mpr
        ⟨hreached, fun hscope => absurd hscope hnot⟩)
      rcases hafter with hown | ⟨hmerged, hopen⟩
      · exact .inl (permits_iff.mp hown).1
      · exact .inr ⟨(permits_iff.mp hmerged).1, not_denied_iff.mp hopen⟩
    · have hafter := h.noWidening instant .selection (some c) ((allows_after_iff hfresh).mpr
        ⟨hreached, fun _ => ⟨⟨date, hdate, hlast⟩, c, rfl, hc⟩⟩)
      rcases hafter with hown | ⟨hmerged, hopen⟩
      · obtain ⟨hstands, hadmits, g, hg, hold⟩ := (contacted_iff rfl).mp hown
        exact ⟨g, .inl ⟨hg, hstands, hadmits⟩, hold⟩
      · obtain ⟨hstands, hadmits, g, hg, hold⟩ := (contacted_iff rfl).mp hmerged
        exact ⟨g, .inr ⟨hg, ⟨hstands, not_denied_iff.mp hopen⟩, hadmits⟩, hold⟩
  · rintro ⟨hnothing, hfresh⟩
    refine ⟨fun instant operation channel hallows => ?_, fun now' clock' => ?_,
      restored_iff_fresh.mpr hfresh⟩
    · obtain ⟨hreached, hterms⟩ := (allows_after_iff hfresh).mp hallows
      by_cases hscope : operation.requiredScope = .contacting
      · obtain ⟨⟨date, hdate, hlast⟩, c, rfl, hc⟩ := hterms hscope
        rw [hscope] at hreached
        obtain ⟨g, hgrant, hold⟩ := hnothing.contacting hreached c hc date hdate instant hlast
        rcases hgrant with ⟨hg, hstands, hadmits⟩ | ⟨hg, hheld, hadmits⟩
        · exact .inl ((contacted_iff hscope).mpr ⟨hstands, hadmits, g, hg, hold⟩)
        · refine .inr ⟨(contacted_iff hscope).mpr ⟨hheld.stands, hadmits, g, hg, hold⟩, ?_⟩
          exact not_denied_iff.mpr (hscope ▸ hheld.undenied)
      · have hnoterms : ∀ rows, ContactingTerms calendar instant rows operation.requiredScope
            channel := fun rows h => absurd h hscope
        rcases hnothing.scopes operation hscope hreached with hown | hheld
        · exact .inl (permits_iff.mpr ⟨hown, hnoterms _⟩)
        · exact .inr ⟨permits_iff.mpr ⟨hheld.stands, hnoterms _⟩, not_denied_iff.mpr hheld.undenied⟩
    · rw [repoint_repeat hne]

/-! ## Two records -/

def rowOf (id record : Nat) (source : CapturedMethod) (scope : ConsentScope)
    (action : ConsentAction)
    (channels : Option (List String)) (occurredAt : Nat) : ConsentEvent where
  id := id
  tenantId := 1
  talentRecordId := record
  scope := scope
  action := action
  capturedByActorId := none
  capturedMethod := source
  consentVersion := "v1"
  occurredAt := occurredAt
  expiresAt := none
  metadata := ⟨channels, none⟩
  createdAt := occurredAt

/-- Record 3 has consented to e-mail only; record 9 has consented to nothing. -/
def emailOnly : ConsentDb where
  events :=
    [rowOf 0 3 .recruiterCapture .profileStorage .granted none 1768435200000,
      rowOf 1 3 .recruiterCapture .matching .granted none 1768435200001,
      rowOf 2 3 .recruiterCapture .contacting .granted (some ["email"]) 1768435200002]
  idempotencyKeys := []
  nextId := 3

def merge3Into9 : RepointArgs := ⟨1, 3, 9, 77, none⟩

/-- Record 3 has consented to e-mail, and record 9 has withdrawn contacting. -/
def withdrawn : ConsentDb where
  events := emailOnly.events ++
    [rowOf 3 9 .recruiterCapture .contacting .revoked none 1768435200003]
  idempotencyKeys := []
  nextId := 4

/-- What the withdrawal leaves of the replay is what record 3 had, and the survivor has it
by the replay alone. -/
theorem withdrawn_contacting_stays_withdrawn :
    ReconcileKeepsConsent commonYear withdrawn 1768521600000 1768521600000 merge3Into9 ∧
      (repointTalentRecordRefs withdrawn 1768521600000 1768521600000 merge3Into9).2.length = 3 ∧
      (resolveConsentState commonYear 1768608000000 9 (talentRows withdrawn.events 1 9)
        .examination none).allows = false ∧
      (resolveConsentState commonYear 1768608000000 9 (talentRows (repointTalentRecordRefs
        withdrawn 1768521600000 1768521600000 merge3Into9).1.events 1 9)
        .examination none).allows = true := by
  have hdenied : ¬ Reached 1768521600000 (talentRows withdrawn.events 1 9)
      (talentRows withdrawn.events 1 3) .contacting := by
    intro hreached
    rcases hreached .contacting mem_cons_self with hstands | hsupplied
    · exact absurd hstands.no_denial (by decide +kernel)
    · exact absurd (hsupplied.undenied _ (by decide +kernel : rowOf 3 9 .recruiterCapture
        .contacting .revoked none 1768435200003 ∈ _) rfl).1 (by decide)
  have hstorage : Stands (talentRows withdrawn.events 1 3) .profileStorage :=
    ⟨by decide +kernel, by decide +kernel⟩
  have hmatching : Stands (talentRows withdrawn.events 1 3) .matching :=
    ⟨by decide +kernel, by decide +kernel⟩
  have hfresh : FreshOperation withdrawn merge3Into9 := by
    unfold FreshOperation
    decide +kernel
  refine ⟨(reconcile_keeps_consent_iff (by decide)).mpr ⟨⟨?_, ?_⟩, hfresh⟩,
    by decide +kernel, by decide +kernel, by decide +kernel⟩
  · intro operation hnot hreached
    cases operation with
    | ingestion => exact .inr ⟨forall_mem_singleton.mpr hstorage, by decide +kernel⟩
    | matching | examination =>
      refine .inr ⟨forall_mem_cons.mpr ⟨hmatching, ?_⟩, by decide +kernel⟩
      exact forall_mem_singleton.mpr hstorage
    | selection | packaging | submittal | communication => exact absurd rfl hnot
    | crossTenant | recording | transcription | aiProcessing =>
      exact absurd hreached (not_reached_of_no_row (by decide +kernel) (by decide +kernel))
  · exact fun hreached => absurd hreached hdenied

/-- After the move the survivor may be telephoned, which neither record allowed. -/
theorem reconcile_drops_channel_limit :
    ¬ ReconcileKeepsConsent commonYear emailOnly 1768521600000 1768521600000 merge3Into9 := by
  intro h
  rcases h.noWidening 1768608000000 .selection (some .phone) (by decide +kernel) with hown | hmerged
  · exact absurd hown (by decide +kernel)
  · exact absurd hmerged.1 (by decide +kernel)

end AramoPlatform.Consent
