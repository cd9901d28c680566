import AramoPlatform.Consent.Answers
import AramoPlatform.Lib.Runs

/-!
# The stale-consent scan

A scan reads the latest contacting row of every talent and later, one
transaction each, appends an `expired` row for those that were old grants. It
looks at all sources together, works from that one read, and writes under
`self_signup`, while the check judges every source by its own latest row.
-/

namespace AramoPlatform.Consent

open Lib List

structure StaleContactingGrant where
  tenantId : Nat
  talentRecordId : Nat
  latestGrantEventId : Nat
  latestGrantOccurredAt : Nat
  deriving DecidableEq

def talentKey (e : ConsentEvent) : Nat × Nat := (e.tenantId, e.talentRecordId)

/-- `findStaleContactingGrants`. The order of the talents is left to the reader. -/
def findStaleContactingGrants (events : List ConsentEvent) (cutoff : Nat) :
    List StaleContactingGrant :=
  ((latestPer talentKey (·.occurredAt) (ofScope .contacting events)).filter fun e =>
    e.action == .granted && decide (e.occurredAt < cutoff)).map fun e =>
      ⟨e.tenantId, e.talentRecordId, e.id, e.occurredAt⟩

/-- A job that has read its grants and still has some to expire. -/
structure StaleScan where
  computedAt : Nat
  cutoff : Nat
  pending : List StaleContactingGrant
  deriving DecidableEq

structure ScanSystem where
  db : ConsentDb
  scans : List StaleScan
  deriving DecidableEq

/-- The row of `markExpired`. -/
def expiredEvent (id clock computedAt : Nat) (g : StaleContactingGrant) : ConsentEvent where
  id := id
  tenantId := g.tenantId
  talentRecordId := g.talentRecordId
  scope := .contacting
  action := .expired
  capturedByActorId := none
  capturedMethod := .selfSignup
  consentVersion := "1"
  occurredAt := computedAt
  expiresAt := none
  metadata := .none
  createdAt := clock

def ConsentDb.markExpired (db : ConsentDb) (clock computedAt : Nat) (g : StaleContactingGrant) :
    ConsentDb :=
  { db with
    events := db.events ++ [expiredEvent db.nextId clock computedAt g],
    nextId := db.nextId + 1 }

inductive ScanStep
  /-- A grant or a revoke. -/
  | record (clock : Nat) (input : RecordConsentEventInput)
  /-- A job starts and reads the old grants. -/
  | scan (computedAt windowMonths : Nat)
  /-- Job `k` expires one of the grants it has read. -/
  | expire (k clock : Nat) (g : StaleContactingGrant)

def scanNext (calendar : Calendar) (s : ScanSystem) : ScanStep → Option ScanSystem
  | .record clock input =>
    match recordConsentEvent s.db clock input with
    | .error _ => some s
    | .ok (db, _) => some { s with db := db }
  | .scan computedAt windowMonths =>
    let cutoff := calendar.monthsBefore windowMonths computedAt
    some { s with
      scans := s.scans ++ [⟨computedAt, cutoff, findStaleContactingGrants s.db.events cutoff⟩] }
  | .expire k clock g =>
    match s.scans[k]? with
    | some scan =>
      if g ∈ scan.pending then
        some { db := s.db.markExpired clock scan.computedAt g
               scans := s.scans.set k { scan with pending := scan.pending.erase g } }
      else none
    | none => none

def scanStep (calendar : Calendar) (s : ScanSystem) (a : ScanStep) (t : ScanSystem) : Prop :=
  scanNext calendar s a = some t

/-! ## What is said of a run -/

/-- The rows of a talent stand in the order in which they were recorded and their
`occurred_at` increases. -/
def InOrder (db : ConsentDb) : Prop :=
  ∀ tenantId talentRecordId,
    (talentRows db.events tenantId talentRecordId).Pairwise (·.occurredAt < ·.occurredAt)

/-- The row is later than those of its talent. -/
def laterThanAll (events : List ConsentEvent) (tenantId talentRecordId occurredAt : Nat) : Bool :=
  (talentRows events tenantId talentRecordId).all fun e => decide (e.occurredAt < occurredAt)

/-- The events of a run carry increasing `occurred_at`. -/
def occursInOrder (s : ScanSystem) : ScanStep → Bool
  | .record _ input =>
    laterThanAll s.db.events input.tenantId input.talentRecordId input.occurredAt
  | .expire k _ g =>
    (s.scans[k]?).all fun scan =>
      laterThanAll s.db.events g.tenantId g.talentRecordId scan.computedAt
  | .scan _ _ => true

/-- A job still has the talent to expire. -/
def pendingFor (scan : StaleScan) (tenantId talentRecordId : Nat) : Bool :=
  scan.pending.any fun g => g.tenantId == tenantId && g.talentRecordId == talentRecordId

/-- Self-signup has recorded something of its own for contacting. -/
def selfSignupOwn (events : List ConsentEvent) (tenantId talentRecordId : Nat) : Bool :=
  (talentRows events tenantId talentRecordId).any fun e =>
    e.scope == .contacting && e.capturedMethod == .selfSignup && e.action != .expired

/-- Nothing is recorded for contacting, by a request or another job, while a job has the
talent to expire; and a talent is expired only when self-signup has recorded something
of its own. -/
def scanUndisturbed (s : ScanSystem) : ScanStep → Bool
  | .record _ input =>
    input.scope != .contacting ||
      (s.db.idempotencyKey? input.tenantId input.idempotencyKey).isSome ||
      s.scans.all fun scan => !pendingFor scan input.tenantId input.talentRecordId
  | .expire k _ g =>
    selfSignupOwn s.db.events g.tenantId g.talentRecordId &&
      (s.scans.eraseIdx k).all fun scan => !pendingFor scan g.tenantId g.talentRecordId
  | .scan _ _ => true

/-- After a revoke, with no later grant from its source, nothing of its scope is allowed. -/
def RevokeStands (calendar : Calendar) (db : ConsentDb) : Prop :=
  ∀ tenantId talentRecordId before (r : ConsentEvent) after,
    talentRows db.events tenantId talentRecordId = before ++ r :: after → r.action = .revoked →
    (∀ g ∈ after, g.scope = r.scope → g.capturedMethod = r.capturedMethod → g.action ≠ .granted) →
    ∀ now (operation : ConsentCheckOperation) channel, operation.requiredScope = r.scope →
      (resolveConsentState calendar now talentRecordId
        (talentRows db.events tenantId talentRecordId) operation channel).allows = false

/-- The contacting rows of a source that no job wrote. -/
def ownRows (rows : List ConsentEvent) (source : CapturedMethod) : List ConsentEvent :=
  (ofScope .contacting rows).filter fun e => e.capturedMethod == source && e.action != .expired

/-- Every source that has said something about contacting has granted it, since the last
expiry and within the window, for this channel. -/
structure Renewed (calendar : Calendar) (now : Nat) (rows : List ConsentEvent)
    (channel : ContactChannel) : Prop where
  some_source : ∃ source, ownRows rows source ≠ []
  granted : ∀ source g, latest (·.occurredAt) (ownRows rows source) = some g → g.action = .granted
  again : ∀ source g, latest (·.occurredAt) (ownRows rows source) = some g →
    isStale calendar g.occurredAt now = false ∧
      ∀ x ∈ ofScope .contacting rows, x.action = .expired → x.occurredAt < g.occurredAt
  unrestricted : ∀ source g, latest (·.occurredAt) (ownRows rows source) = some g →
    admits channel g = true

/-- A renewal lifts the denial. -/
def RenewalRestores (calendar : Calendar) (db : ConsentDb) : Prop :=
  ∀ tenantId talentRecordId now channel (operation : ConsentCheckOperation),
    operation.requiredScope = .contacting →
    Renewed calendar now (talentRows db.events tenantId talentRecordId) channel →
    (∀ dep ∈ scopeDependencyChain .contacting,
      Stands (talentRows db.events tenantId talentRecordId) dep) →
    (resolveConsentState calendar now talentRecordId
      (talentRows db.events tenantId talentRecordId) operation (some channel)).allows = true

/-- The latest contacting row of the talent is a grant older than the job's window. -/
def LatestIsOldGrant (db : ConsentDb) (cutoff : Nat) (g : StaleContactingGrant) : Prop :=
  ∃ e, latest (·.occurredAt)
      (ofScope .contacting (talentRows db.events g.tenantId g.talentRecordId)) = some e ∧
    e.action = .granted ∧ e.occurredAt < cutoff

/-- An expiry is appended only to an old grant. -/
def ExpiryJustified (s : ScanSystem) : ScanStep → Prop
  | .expire k _ g => ∀ scan, s.scans[k]? = some scan → LatestIsOldGrant s.db scan.cutoff g
  | .record _ _ | .scan _ _ => True

/-- Only jobs write `expired`, and self-signup then had a row of its own. -/
def ExpiriesOwned (db : ConsentDb) : Prop :=
  ∀ e ∈ db.events, e.action = .expired →
    e.scope = .contacting ∧ e.capturedMethod = .selfSignup ∧
      selfSignupOwn db.events e.tenantId e.talentRecordId = true

/-- A ledger in order, on which no job is at work. -/
structure ScanStart (s : ScanSystem) : Prop where
  inOrder : InOrder s.db
  owned : ExpiriesOwned s.db
  noScans : s.scans = []

variable {calendar : Calendar} {s t : ScanSystem} {db : ConsentDb} {now talentRecordId : Nat}
  {rows : List ConsentEvent} {channel : ContactChannel}

/-! ## A denial stands until its source grants -/

theorem revoke_stands (h : InOrder db) : RevokeStands calendar db := by
  intro tenantId talentRecordId before r after hrows hrevoked hafter now operation channel hop
  rw [Bool.eq_false_iff]
  intro hallows
  obtain ⟨-, hstands, -⟩ := resolveConsentState_allows_iff.mp hallows
  rw [hop] at hstands
  have hordered := h tenantId talentRecordId
  rw [hrows] at hordered hstands
  have hr : r ∈ ofScope r.scope (before ++ r :: after) := by simp [ofScope]
  -- the latest row of the source is the revoke or comes after it
  obtain ⟨e, he⟩ := exists_latest_of_mem (·.capturedMethod) (·.occurredAt) hr
  have hlast := isLatest_of_latest he
  obtain ⟨hmem, hsource⟩ := mem_filter.mp hlast.1
  obtain ⟨hmem, hscope⟩ := mem_filter.mp hmem
  have hlate : r.occurredAt ≤ e.occurredAt := hlast.2 r (mem_filter.mpr ⟨hr, by simp⟩)
  have hdenial : isDenial e = false := by
    rw [Bool.eq_false_iff]
    intro hd
    have hany : anyLatest isDenial (ofScope r.scope (before ++ r :: after)) = true := by
      refine anyLatest_iff.mpr ⟨e, ?_, hd⟩
      rw [(latestOfKey_of_latest he).1]
      exact he
    rw [hstands.no_denial] at hany
    cases hany
  have hgrant := isGrant_of_not_denial hdenial
  rcases mem_append.mp hmem with hbefore | hrest
  · have := (pairwise_append.mp hordered).2.2 e hbefore r mem_cons_self
    omega
  · rcases mem_cons.mp hrest with rfl | hin
    · rw [hrevoked] at hgrant
      cases hgrant
    · exact hafter e hin (eq_of_beq hscope) (eq_of_beq hsource) hgrant

/-! ## A renewal lifts an expiry -/

theorem eq_of_occurredAt_eq (h : rows.Pairwise (·.occurredAt < ·.occurredAt)) {a b : ConsentEvent}
    (ha : a ∈ rows) (hb : b ∈ rows) (htime : a.occurredAt = b.occurredAt) : a = b := by
  have hnd : (rows.map (·.occurredAt)).Nodup := by
    rw [nodup_iff_pairwise_ne, pairwise_map]
    exact h.imp fun hlt => Nat.ne_of_lt hlt
  exact inj_on_of_nodup_map hnd ha hb htime

/-- The own row that a source has last is its latest row, unless a job wrote that. -/
theorem latest_own_of_latest (h : rows.Pairwise (·.occurredAt < ·.occurredAt)) {e : ConsentEvent}
    (source : CapturedMethod) {p : ConsentEvent → Bool}
    (he : latest (·.occurredAt) ((ofScope .contacting rows).filter fun x =>
      x.capturedMethod == source && p x) = some e)
    (hall : ∀ x ∈ ownRows rows source, x.occurredAt ≤ e.occurredAt)
    (hown : e.action ≠ .expired) :
    latest (·.occurredAt) (ownRows rows source) = some e := by
  obtain ⟨hmem, -⟩ := isLatest_of_latest he
  obtain ⟨hscope, hp⟩ := mem_filter.mp hmem
  rw [Bool.and_eq_true] at hp
  have heown : e ∈ ownRows rows source :=
    mem_filter.mpr ⟨hscope, by simpa [hown] using hp.1⟩
  obtain ⟨g, hg⟩ : ∃ g, latest (·.occurredAt) (ownRows rows source) = some g :=
    Option.isSome_iff_exists.mp (latest_isSome.mpr (ne_nil_of_mem heown))
  have hlast := isLatest_of_latest hg
  have htime : g.occurredAt = e.occurredAt := by
    have hge : e.occurredAt ≤ g.occurredAt := hlast.2 e heown
    have hle := hall g hlast.1
    omega
  have hgmem : g ∈ rows := (mem_filter.mp (mem_filter.mp hlast.1).1).1
  rw [hg, eq_of_occurredAt_eq h hgmem (mem_filter.mp hscope).1 htime]

theorem mem_ownRows {source : CapturedMethod} {x : ConsentEvent} :
    x ∈ ownRows rows source ↔
      x ∈ rows ∧ x.scope = .contacting ∧ x.capturedMethod = source ∧ x.action ≠ .expired := by
  simp only [ownRows, ofScope, mem_filter, Bool.and_eq_true, beq_iff_eq, bne_iff_ne, ne_eq,
    and_assoc]

theorem Renewed.stands (h : Renewed calendar now rows channel)
    (horder : rows.Pairwise (·.occurredAt < ·.occurredAt))
    (howned : ∀ e ∈ rows, e.action = .expired →
      e.capturedMethod = .selfSignup ∧ ownRows rows .selfSignup ≠ []) :
    Stands rows .contacting := by
  constructor
  · obtain ⟨source, hne⟩ := h.some_source
    intro hnil
    refine hne ?_
    rw [ownRows, hnil, filter_nil]
  · rw [Bool.eq_false_iff]
    intro hany
    obtain ⟨e, he, hd⟩ := anyLatest_iff.mp hany
    obtain ⟨hmem, hmax⟩ := isLatest_of_latest he
    obtain ⟨hscope, -⟩ := mem_filter.mp hmem
    have hrow := (mem_filter.mp hscope).1
    have hcontacting : e.scope = .contacting := by simpa using (mem_filter.mp hscope).2
    by_cases hexp : e.action = .expired
    · -- the expiry of a job: self-signup has granted again since
      obtain ⟨hsource, hne⟩ := howned e hrow hexp
      obtain ⟨g, hg⟩ : ∃ g, latest (·.occurredAt) (ownRows rows .selfSignup) = some g :=
        Option.isSome_iff_exists.mp (latest_isSome.mpr hne)
      have hlater := (h.again _ g hg).2 e hscope hexp
      obtain ⟨hgrow, hgscope, hgsource, -⟩ := mem_ownRows.mp (isLatest_of_latest hg).1
      have hle : g.occurredAt ≤ e.occurredAt := by
        refine hmax g (mem_filter.mpr ⟨mem_filter.mpr ⟨hgrow, by simp [hgscope]⟩, ?_⟩)
        simp [hgsource, hsource]
      omega
    · have hown := latest_own_of_latest horder e.capturedMethod (p := fun _ => true)
        (by simpa [ofKey] using he) ?_ hexp
      · have hgrant := h.granted _ e hown
        simp [isDenial, hgrant] at hd
      · intro x hx
        obtain ⟨hxrow, hxscope, hxsource, -⟩ := mem_ownRows.mp hx
        refine hmax x (mem_filter.mpr ⟨mem_filter.mpr ⟨hxrow, by simp [hxscope]⟩, ?_⟩)
        simp [hxsource]

theorem Renewed.latest_grant {e : ConsentEvent} (h : Renewed calendar now rows channel)
    (horder : rows.Pairwise (·.occurredAt < ·.occurredAt))
    (he : latest (·.occurredAt) (ofKey (·.capturedMethod) e.capturedMethod
      (grantsOf .contacting rows)) = some e) :
    latest (·.occurredAt) (ownRows rows e.capturedMethod) = some e := by
  have hfilter : ofKey (·.capturedMethod) e.capturedMethod (grantsOf .contacting rows) =
      (ofScope .contacting rows).filter fun x =>
        x.capturedMethod == e.capturedMethod && x.action == .granted := by
    simp only [ofKey, grantsOf, ofScope, filter_filter]
    refine filter_congr fun x _ => ?_
    cases x.scope == .contacting <;> simp
  rw [hfilter] at he
  obtain ⟨hmem, hmax⟩ := isLatest_of_latest he
  obtain ⟨hscope, hp⟩ := mem_filter.mp hmem
  have hgranted : e.action = .granted := by simpa using hp
  refine latest_own_of_latest horder _ he ?_ (by simp [hgranted])
  intro x hx
  obtain ⟨g, hg⟩ : ∃ g, latest (·.occurredAt) (ownRows rows e.capturedMethod) = some g :=
    Option.isSome_iff_exists.mp (latest_isSome.mpr (ne_nil_of_mem hx))
  have hlast := isLatest_of_latest hg
  obtain ⟨hgrow, hgscope, hgsource, -⟩ := mem_ownRows.mp hlast.1
  have hle : g.occurredAt ≤ e.occurredAt := by
    refine hmax g (mem_filter.mpr ⟨mem_filter.mpr ⟨hgrow, by simp [hgscope]⟩, ?_⟩)
    simp [hgsource, h.granted _ g hg]
  have hxg : x.occurredAt ≤ g.occurredAt := hlast.2 x hx
  omega

theorem renewal_restores (horder : InOrder db) (howned : ExpiriesOwned db) :
    RenewalRestores calendar db := by
  intro tenantId talentRecordId now channel operation hop hrenewed hdeps
  have hpair := horder tenantId talentRecordId
  have hown : ∀ e ∈ talentRows db.events tenantId talentRecordId, e.action = .expired →
      e.capturedMethod = .selfSignup ∧
        ownRows (talentRows db.events tenantId talentRecordId) .selfSignup ≠ [] := by
    intro e he hexp
    obtain ⟨hmem, hkey⟩ := mem_filter.mp he
    rw [Bool.and_eq_true, beq_iff_eq, beq_iff_eq] at hkey
    obtain ⟨-, hsource, hself⟩ := howned e hmem hexp
    rw [hkey.1, hkey.2] at hself
    obtain ⟨x, hx, hp⟩ := any_eq_true.mp hself
    simp only [Bool.and_eq_true, beq_iff_eq, bne_iff_ne] at hp
    exact ⟨hsource, ne_nil_of_mem (mem_ownRows.mpr ⟨hx, hp.1.1, hp.1.2, hp.2⟩)⟩
  have hstands := hrenewed.stands hpair hown
  rw [resolveConsentState_allows_iff, hop]
  refine ⟨hdeps, hstands, fun _ => ⟨?_, channel, rfl, ?_⟩⟩
  · intro g hg
    obtain ⟨source, hne⟩ := hrenewed.some_source
    obtain ⟨own, hown'⟩ : ∃ own, latest (·.occurredAt)
        (ownRows (talentRows db.events tenantId talentRecordId) source) = some own :=
      Option.isSome_iff_exists.mp (latest_isSome.mpr hne)
    obtain ⟨hrow, hscope, -, -⟩ := mem_ownRows.mp (isLatest_of_latest hown').1
    have hle : own.occurredAt ≤ g.occurredAt := by
      refine (isLatest_of_latest hg).2 own (mem_filter.mpr ⟨hrow, ?_⟩)
      simp [hscope, hrenewed.granted source own hown']
    have hfresh := (hrenewed.again source own hown').1
    simp only [isStale, decide_eq_false_iff_not, Nat.not_lt] at hfresh ⊢
    omega
  · rw [AdmitsChannel, Bool.eq_false_iff]
    intro hany
    obtain ⟨e, he, hp⟩ := anyLatest_iff.mp hany
    have := hrenewed.unrestricted _ e (hrenewed.latest_grant hpair he)
    rw [this] at hp
    cases hp

/-! ## What one step does -/

inductive ScanEffect (calendar : Calendar) (s : ScanSystem) : ScanStep → ScanSystem → Prop
  | recorded {clock : Nat} {input : RecordConsentEventInput} (haction : input.action ≠ .expired)
    (hkey : s.db.idempotencyKey? input.tenantId input.idempotencyKey = none) :
    ScanEffect calendar s (.record clock input)
      { s with db := (s.db.insertConsentEvent clock input).1 }
  | unchanged (clock : Nat) (input : RecordConsentEventInput) :
    ScanEffect calendar s (.record clock input) s
  | read (computedAt windowMonths : Nat) :
    ScanEffect calendar s (.scan computedAt windowMonths)
      { s with
        scans := s.scans ++ [⟨computedAt, calendar.monthsBefore windowMonths computedAt,
          findStaleContactingGrants s.db.events (calendar.monthsBefore windowMonths computedAt)⟩] }
  | expired {k : Nat} {g : StaleContactingGrant} {scan : StaleScan} (clock : Nat)
    (hscan : s.scans[k]? = some scan) (hg : g ∈ scan.pending) :
    ScanEffect calendar s (.expire k clock g)
      { db := s.db.markExpired clock scan.computedAt g
        scans := s.scans.set k { scan with pending := scan.pending.erase g } }

theorem scanStep_effect {a : ScanStep} (h : scanStep calendar s a t) :
    ScanEffect calendar s a t := by
  unfold scanStep at h
  cases a with
  | record clock input =>
    simp only [scanNext] at h
    cases hrec : recordConsentEvent s.db clock input with
    | error _ =>
      rw [hrec] at h
      obtain rfl := Option.some.inj h
      exact .unchanged clock input
    | ok result =>
      obtain ⟨db', response⟩ := result
      rw [hrec] at h
      obtain rfl := Option.some.inj h
      rcases recordConsentEvent_cases hrec with ⟨_, -, -, -, rfl⟩ | ⟨hkey, haction, hins⟩
      · exact .unchanged clock input
      · have hdb := congrArg Prod.fst hins
        dsimp only at hdb ⊢
        rw [hdb]
        exact .recorded haction hkey
  | scan computedAt windowMonths =>
    obtain rfl := Option.some.inj h
    exact .read computedAt windowMonths
  | expire k clock g =>
    simp only [scanNext] at h
    split at h
    next scan hscan =>
      split at h
      next hg =>
        obtain rfl := Option.some.inj h
        exact .expired clock hscan hg
      · cases h
    · cases h

/-! ## The invariant of a run -/

/-- The ledger is in order, its expiries have self-signup beside them, and what a job has
read is still so. -/
structure ScanInv (s : ScanSystem) : Prop where
  inOrder : InOrder s.db
  owned : ExpiriesOwned s.db
  pending : ∀ scan ∈ s.scans, ∀ g ∈ scan.pending, LatestIsOldGrant s.db scan.cutoff g
  once : ∀ scan ∈ s.scans, (scan.pending.map fun g => (g.tenantId, g.talentRecordId)).Nodup

theorem ScanStart.inv (h : ScanStart s) : ScanInv s where
  inOrder := h.inOrder
  owned := h.owned
  pending := by
    rw [h.noScans]
    intro scan hscan
    cases hscan
  once := by
    rw [h.noScans]
    intro scan hscan
    cases hscan

section Append

variable {events : List ConsentEvent} {e : ConsentEvent} {keys keys' : List IdempotencyRow}
  {n n' : Nat}

theorem InOrder.append (h : InOrder ⟨events, keys, n⟩)
    (hlater : laterThanAll events e.tenantId e.talentRecordId e.occurredAt = true) :
    InOrder ⟨events ++ [e], keys', n'⟩ := by
  intro tenantId talentRecordId
  show (talentRows (events ++ [e]) tenantId talentRecordId).Pairwise _
  rw [talentRows_append, talentRows_singleton]
  split
  next hkey =>
    refine pairwise_append.mpr
      ⟨h tenantId talentRecordId, pairwise_singleton _ _, fun a ha b hb => ?_⟩
    rw [mem_singleton.mp hb]
    rw [← hkey.1, ← hkey.2] at ha
    simpa using all_eq_true.mp hlater a ha
  · rw [append_nil]
    exact h tenantId talentRecordId

theorem selfSignupOwn_append {tenantId talentRecordId : Nat}
    (h : selfSignupOwn events tenantId talentRecordId = true) :
    selfSignupOwn (events ++ [e]) tenantId talentRecordId = true := by
  rw [selfSignupOwn, talentRows_append, any_append, Bool.or_eq_true]
  exact .inl h

theorem ExpiriesOwned.append (h : ExpiriesOwned ⟨events, keys, n⟩)
    (he : e.action = .expired → e.scope = .contacting ∧ e.capturedMethod = .selfSignup ∧
      selfSignupOwn events e.tenantId e.talentRecordId = true) :
    ExpiriesOwned ⟨events ++ [e], keys', n'⟩ := by
  intro x hx hexp
  rcases (mem_append.mp hx).imp_right mem_singleton.mp with hold | rfl
  · obtain ⟨hscope, hsource, hself⟩ := h x hold hexp
    exact ⟨hscope, hsource, selfSignupOwn_append hself⟩
  · obtain ⟨hscope, hsource, hself⟩ := he hexp
    exact ⟨hscope, hsource, selfSignupOwn_append hself⟩

/-- A row of another talent, or not for contacting, leaves the latest contacting row. -/
theorem LatestIsOldGrant.append {cutoff : Nat} {g : StaleContactingGrant}
    (h : LatestIsOldGrant ⟨events, keys, n⟩ cutoff g)
    (he : e.scope = .contacting →
      ¬ (e.tenantId = g.tenantId ∧ e.talentRecordId = g.talentRecordId)) :
    LatestIsOldGrant ⟨events ++ [e], keys', n'⟩ cutoff g := by
  have hrows : ofScope .contacting (talentRows (events ++ [e]) g.tenantId g.talentRecordId) =
      ofScope .contacting (talentRows events g.tenantId g.talentRecordId) := by
    rw [talentRows_append, talentRows_singleton, ofScope, filter_append]
    by_cases hscope : e.scope = .contacting
    · rw [if_neg (he hscope), filter_nil, append_nil]
      rfl
    · have hdrop : (if e.tenantId = g.tenantId ∧ e.talentRecordId = g.talentRecordId then [e]
          else []).filter (fun x => x.scope == .contacting) = [] := by
        split <;> simp [hscope]
      rw [hdrop, append_nil]
      rfl
  obtain ⟨x, hx, hrest⟩ := h
  refine ⟨x, ?_, hrest⟩
  show latest _ (ofScope .contacting (talentRows (events ++ [e]) g.tenantId g.talentRecordId)) = _
  rw [hrows]
  exact hx

end Append

variable {g : StaleContactingGrant}

theorem latestIsOldGrant_of_found {cutoff : Nat}
    (h : g ∈ findStaleContactingGrants db.events cutoff) : LatestIsOldGrant db cutoff g := by
  obtain ⟨e, he, rfl⟩ := mem_map.mp h
  obtain ⟨hper, hp⟩ := mem_filter.mp he
  simp only [Bool.and_eq_true, beq_iff_eq, decide_eq_true_eq] at hp
  refine ⟨e, ?_, hp⟩
  have hrows : ofScope .contacting (talentRows db.events e.tenantId e.talentRecordId) =
      ofKey talentKey (talentKey e) (ofScope .contacting db.events) := by
    simp only [ofScope, talentRows, ofKey, filter_filter]
    refine filter_congr fun x _ => ?_
    rw [Bool.eq_iff_iff]
    simp [talentKey, Prod.ext_iff, and_comm]
  rw [hrows]
  exact mem_latestPer.mp hper

theorem found_once (events : List ConsentEvent) (cutoff : Nat) :
    ((findStaleContactingGrants events cutoff).map
      fun g => (g.tenantId, g.talentRecordId)).Nodup := by
  have hkeys : ((latestPer talentKey (·.occurredAt) (ofScope .contacting events)).map
      talentKey).Nodup := nodup_latestPer _
  rw [findStaleContactingGrants, map_map]
  exact hkeys.sublist (filter_sublist.map talentKey)

theorem pendingFor_eq_false {scan : StaleScan} {tenantId talentRecordId : Nat}
    (h : pendingFor scan tenantId talentRecordId = false)
    (hg : g ∈ scan.pending) : ¬ (tenantId = g.tenantId ∧ talentRecordId = g.talentRecordId) := by
  rintro ⟨rfl, rfl⟩
  have hp : pendingFor scan g.tenantId g.talentRecordId = true :=
    any_eq_true.mpr ⟨g, hg, by simp⟩
  rw [h] at hp
  cases hp

theorem other_pending {k : Nat} {other : StaleScan}
    (h : (s.scans.eraseIdx k).all fun scan => !pendingFor scan g.tenantId g.talentRecordId)
    (hother : other ∈ s.scans.eraseIdx k) :
    pendingFor other g.tenantId g.talentRecordId = false := by
  simpa using all_eq_true.mp h other hother

theorem pending_after_expire {k : Nat} {scan : StaleScan}
    (hscan : s.scans[k]? = some scan) (hg : g ∈ scan.pending)
    (hnd : (scan.pending.map fun g => (g.tenantId, g.talentRecordId)).Nodup)
    (hothers : (s.scans.eraseIdx k).all fun scan => !pendingFor scan g.tenantId g.talentRecordId) :
    ∀ after ∈ s.scans.set k { scan with pending := scan.pending.erase g }, ∀ left ∈ after.pending,
      ¬ (g.tenantId = left.tenantId ∧ g.talentRecordId = left.talentRecordId) := by
  intro after hafter left hleft hkey
  obtain ⟨i, hi⟩ := mem_iff_getElem?.mp hafter
  by_cases hik : k = i
  · subst hik
    rw [getElem?_set_self (List.getElem?_eq_some_iff.mp hscan).1, Option.some.injEq] at hi
    subst hi
    -- the erased grant was the only one of its talent
    have hpnd : scan.pending.Nodup := hnd.of_map _
    have hleft' : left ≠ g ∧ left ∈ scan.pending := (hpnd.mem_erase_iff).mp hleft
    refine hleft'.1 (inj_on_of_nodup_map hnd hleft'.2 hg ?_)
    rw [hkey.1, hkey.2]
  · rw [getElem?_set_ne hik] at hi
    have hmem : after ∈ s.scans.eraseIdx k :=
      mem_eraseIdx_iff_getElem?.mpr ⟨i, fun h => hik h.symm, hi⟩
    exact pendingFor_eq_false (other_pending hothers hmem) hleft hkey

theorem ScanInv.step {a : ScanStep} (h : ScanInv s)
    (hstep : Guarded (scanStep calendar)
      (fun s a => (occursInOrder s a && scanUndisturbed s a) = true) s a t) : ScanInv t := by
  obtain ⟨hone, hok⟩ := hstep
  rw [Bool.and_eq_true] at hok
  obtain ⟨hlater, hclear⟩ := hok
  cases scanStep_effect hone with
  | @recorded clock input haction hkey =>
    simp only [scanUndisturbed, hkey, Option.isSome_none, Bool.or_false, Bool.or_eq_true,
      bne_iff_ne, all_eq_true, Bool.not_eq_true'] at hclear
    refine ⟨h.inOrder.append hlater, h.owned.append fun hexp => absurd hexp haction, ?_, h.once⟩
    intro scan hscan g hg
    refine (h.pending scan hscan g hg).append fun hscope => ?_
    rcases hclear with hother | hall
    · exact absurd hscope hother
    · exact pendingFor_eq_false (hall scan hscan) hg
  | unchanged clock input => exact h
  | read computedAt windowMonths =>
    refine ⟨h.inOrder, h.owned, fun scan hscan g hg => ?_, fun scan hscan => ?_⟩
    · rcases (mem_append.mp hscan).imp_right mem_singleton.mp with hold | rfl
      · exact h.pending scan hold g hg
      · exact latestIsOldGrant_of_found hg
    · rcases (mem_append.mp hscan).imp_right mem_singleton.mp with hold | rfl
      · exact h.once scan hold
      · exact found_once _ _
  | @expired k g scan clock hscan hg =>
    simp only [occursInOrder, hscan, Option.all_some] at hlater
    simp only [scanUndisturbed, Bool.and_eq_true] at hclear
    have hmem := mem_of_getElem? hscan
    have hgone := pending_after_expire hscan hg (h.once scan hmem) hclear.2
    refine ⟨h.inOrder.append hlater, h.owned.append fun _ => ⟨rfl, rfl, hclear.1⟩, ?_, ?_⟩
    · intro after hafter left hleft
      have hread : LatestIsOldGrant s.db after.cutoff left := by
        rcases mem_or_eq_of_mem_set hafter with hold | rfl
        · exact h.pending after hold left hleft
        · exact h.pending scan hmem left (mem_of_mem_erase hleft)
      exact hread.append fun _ => hgone after hafter left hleft
    · intro after hafter
      rcases mem_or_eq_of_mem_set hafter with hold | rfl
      · exact h.once after hold
      · exact (h.once scan hmem).sublist (erase_sublist.map _)

theorem ScanInv.expiryJustified (h : ScanInv s) {a : ScanStep} (hstep : scanStep calendar s a t) :
    ExpiryJustified s a := by
  cases scanStep_effect hstep with
  | @expired k g scan clock hscan hg =>
    intro found hfound
    rw [hscan, Option.some.injEq] at hfound
    subst hfound
    exact h.pending scan (mem_of_getElem? hscan) g hg
  | recorded | unchanged | read => exact trivial

/-- **Denials and renewals**: over any order of grants, revokes and jobs with increasing
`occurred_at`, when nothing is recorded for contacting while a job has the talent to
expire, and only talents with a row of self-signup are expired: a revoke stands until its
source grants, every expiry meets an old grant, and a renewal restores the check. -/
theorem only_renewal_lifts_denial {steps : List ScanStep} (hstart : ScanStart s)
    (hrun : Run (Guarded (scanStep calendar)
      fun s a => (occursInOrder s a && scanUndisturbed s a) = true) s steps t) :
    RevokeStands calendar t.db ∧ RenewalRestores calendar t.db ∧
      ∀ a u, scanStep calendar t a u → ExpiryJustified t a := by
  have hinv : ScanInv t := hrun.invariant (fun _ _ _ hi hstep => hi.step hstep) hstart.inv
  refine ⟨revoke_stands hinv.inOrder, renewal_restores hinv.inOrder hinv.owned, ?_⟩
  intro a u hstep
  exact hinv.expiryJustified hstep

/-! ## Runs -/

def noScans : ScanSystem := ⟨⟨[], [], 0⟩, []⟩

/-- A grant for talent 9 of tenant 1, unrestricted and without a term. -/
def grantBy (source : CapturedMethod) (scope : ConsentScope) (key : String) (occurredAt : Nat) :
    ScanStep :=
  .record occurredAt
    { tenantId := 1
      talentRecordId := 9
      action := .granted
      scope := scope
      capturedMethod := source
      capturedByActorId := some 5
      consentVersion := "v1"
      occurredAt := occurredAt
      expiresAt := none
      metadata := .none
      idempotencyKey := .request key
      requestHash := .request key }

def oldGrant (id : Nat) : StaleContactingGrant := ⟨1, 9, id, 1705276800002⟩

def capturedMethods : List CapturedMethod :=
  [.selfSignup, .recruiterCapture, .uploadFlow, .imported, .portalSelfService,
    .recruiterCreateDefault]

theorem mem_capturedMethods (source : CapturedMethod) : source ∈ capturedMethods := by
  cases source <;> decide

def renewedTest (calendar : Calendar) (now : Nat) (rows : List ConsentEvent)
    (channel : ContactChannel) : Bool :=
  (capturedMethods.any fun source => !(ownRows rows source).isEmpty) &&
    capturedMethods.all fun source =>
      (latest (·.occurredAt) (ownRows rows source)).all fun g =>
        g.action == .granted && !isStale calendar g.occurredAt now && admits channel g &&
          (ofScope .contacting rows).all fun x =>
            x.action != .expired || decide (x.occurredAt < g.occurredAt)

theorem renewed_of_test (h : renewedTest calendar now rows channel = true) :
    Renewed calendar now rows channel := by
  rw [renewedTest, Bool.and_eq_true] at h
  obtain ⟨hsome, hall⟩ := h
  have hone : ∀ source g, latest (·.occurredAt) (ownRows rows source) = some g →
      g.action = .granted ∧ isStale calendar g.occurredAt now = false ∧ admits channel g = true ∧
        ∀ x ∈ ofScope .contacting rows, x.action = .expired → x.occurredAt < g.occurredAt := by
    intro source g hg
    have hsource := all_eq_true.mp hall source (mem_capturedMethods source)
    rw [hg] at hsource
    simp only [Option.all_some, Bool.and_eq_true, beq_iff_eq, Bool.not_eq_true',
      all_eq_true, Bool.or_eq_true, bne_iff_ne, decide_eq_true_eq] at hsource
    exact ⟨hsource.1.1.1, hsource.1.1.2, hsource.1.2, fun x hx hexp =>
      (hsource.2 x hx).resolve_left fun hne => hne hexp⟩
  constructor
  · obtain ⟨source, -, hne⟩ := any_eq_true.mp hsome
    exact ⟨source, by simpa using hne⟩
  · exact fun source g hg => (hone source g hg).1
  · exact fun source g hg => ⟨(hone source g hg).2.1, (hone source g hg).2.2.2⟩
  · exact fun source g hg => (hone source g hg).2.2.1

theorem noScans_start : ScanStart noScans where
  inOrder _ _ := .nil
  owned e he := by cases he
  noScans := rfl

/-- Self-signup's old grant is expired and granted again. -/
theorem selfSignup_renewal_restores :
    ∃ s, Run (Guarded (scanStep commonYear)
        fun s a => (occursInOrder s a && scanUndisturbed s a) = true) noScans
        [grantBy .selfSignup .contacting "k1" 1705276800002, .scan 1768435200000 12,
          .expire 0 1768435200001 (oldGrant 0),
          grantBy .selfSignup .contacting "k2" 1768521600000] s ∧
      RenewalRestores commonYear s.db := by
  obtain ⟨s, hrun, -⟩ := guardedRun_of_exec (scanNext commonYear) (fun _ _ _ h => h) _
    (fun s a => occursInOrder s a && scanUndisturbed s a) (fun _ _ h => h) noScans
    [grantBy .selfSignup .contacting "k1" 1705276800002, .scan 1768435200000 12,
      .expire 0 1768435200001 (oldGrant 0), grantBy .selfSignup .contacting "k2" 1768521600000]
    (fun _ => true) (by decide +kernel)
  exact ⟨s, hrun, (only_renewal_lifts_denial noScans_start hrun).2.1⟩

/-- The recruiter's grant is expired under self-signup and stays denied after the
recruiter has recorded a new one; and a grant renewed between the read of a job and its
write is expired. -/
theorem expiry_outlives_renewal :
    (∃ s, Run (Guarded (scanStep commonYear) fun s a => occursInOrder s a = true) noScans
        [grantBy .recruiterCapture .profileStorage "k1" 1705276800000,
          grantBy .recruiterCapture .matching "k2" 1705276800001,
          grantBy .recruiterCapture .contacting "k3" 1705276800002, .scan 1768435200000 12,
          .expire 0 1768435200001 (oldGrant 2),
          grantBy .recruiterCapture .contacting "k4" 1768521600000] s ∧
      ¬ RenewalRestores commonYear s.db) ∧
    ∃ s t, Run (Guarded (scanStep commonYear) fun s a => occursInOrder s a = true) noScans
        [grantBy .recruiterCapture .contacting "k1" 1705276800002, .scan 1768435200000 12,
          grantBy .recruiterCapture .contacting "k2" 1768435199999] s ∧
      Guarded (scanStep commonYear) (fun s a => occursInOrder s a = true) s
        (.expire 0 1768435200002 (oldGrant 0)) t ∧
      ¬ ExpiryJustified s (.expire 0 1768435200002 (oldGrant 0)) := by
  constructor
  · obtain ⟨s, hrun, hp⟩ := guardedRun_of_exec (scanNext commonYear) (fun _ _ _ h => h) _
      occursInOrder (fun _ _ h => h) noScans
      [grantBy .recruiterCapture .profileStorage "k1" 1705276800000,
        grantBy .recruiterCapture .matching "k2" 1705276800001,
        grantBy .recruiterCapture .contacting "k3" 1705276800002, .scan 1768435200000 12,
        .expire 0 1768435200001 (oldGrant 2),
        grantBy .recruiterCapture .contacting "k4" 1768521600000]
      (fun s => renewedTest commonYear 1768608000000 (talentRows s.db.events 1 9) .email &&
        ((scopeDependencyChain .contacting).all fun dep =>
          computeMostRestrictiveStateForScope (talentRows s.db.events 1 9) dep == .allowed) &&
        !(resolveConsentState commonYear 1768608000000 9 (talentRows s.db.events 1 9) .selection
          (some .email)).allows)
      (by decide +kernel)
    simp only [Bool.and_eq_true, all_eq_true, beq_iff_eq, Bool.not_eq_true'] at hp
    obtain ⟨⟨hrenewed, hdeps⟩, hdenied⟩ := hp
    refine ⟨s, hrun, fun hrestores => ?_⟩
    have hallows := hrestores 1 9 1768608000000 .email .selection rfl (renewed_of_test hrenewed)
      fun dep hdep => scopeState_allowed_iff.mp (hdeps dep hdep)
    rw [hdenied] at hallows
    cases hallows
  · obtain ⟨s, hrun, hp⟩ := guardedRun_of_exec (scanNext commonYear) (fun _ _ _ h => h) _
      occursInOrder (fun _ _ h => h) noScans
      [grantBy .recruiterCapture .contacting "k1" 1705276800002, .scan 1768435200000 12,
        grantBy .recruiterCapture .contacting "k2" 1768435199999]
      (fun s => (s.scans[0]?).any (fun scan : StaleScan =>
        decide (scan.cutoff ≤ 1768435199999)) &&
        (occursInOrder s (.expire 0 1768435200002 (oldGrant 0)) &&
          (scanNext commonYear s (.expire 0 1768435200002 (oldGrant 0))).isSome) &&
        (latest (fun e : ConsentEvent => e.occurredAt)
          (ofScope .contacting (talentRows s.db.events 1 9))).any fun e : ConsentEvent =>
            e.occurredAt == 1768435199999)
      (by decide +kernel)
    simp only [Bool.and_eq_true] at hp
    obtain ⟨⟨hcutoff, horder, hstep⟩, hlatest⟩ := hp
    obtain ⟨t, ht⟩ := Option.isSome_iff_exists.mp hstep
    refine ⟨s, t, hrun, ⟨ht, horder⟩, fun hjust => ?_⟩
    cases hscan : s.scans[0]? with
    | none => simp [hscan] at hcutoff
    | some scan =>
      obtain ⟨e, he, -, hold⟩ := hjust scan hscan
      have he' : latest (·.occurredAt) (ofScope .contacting (talentRows s.db.events 1 9)) =
          some e := he
      rw [he'] at hlatest
      have htime : e.occurredAt = 1768435199999 := by simpa using hlatest
      have hle : scan.cutoff ≤ 1768435199999 := by simpa [hscan] using hcutoff
      omega

end AramoPlatform.Consent
