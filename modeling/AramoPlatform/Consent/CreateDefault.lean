import AramoPlatform.Consent.Ledger
import AramoPlatform.Lib.Runs

/-!
# The at-create consent default

`recordRecruiterCreateDefault` reads the ledger once and then writes three
scopes, each in its own transaction under a key of its own. Any other writer
may come between two of these, and the call may stop after any of them. The
guard also sees what an earlier call left half done, and skips it.
-/

namespace AramoPlatform.Consent

open Lib List

def recruiterCreateDefaultScopes : List ConsentScope := [.profileStorage, .matching, .contacting]

def recruiterCreateDefaultChannels : List String := ["email", "phone"]

/-- `CONSENT_TEXT_RECRUITER_CREATE_DEFAULT_VERSION`. -/
def recruiterCreateDefaultVersion : String := "recruiter-create-default-v1"

def consentDefaultTermMonths : Nat := 12

inductive SkipReason
  | notRecruiter
  | consentLedgerNotEmpty
  deriving DecidableEq

/-- Where a call stands: the scopes it has yet to write, or how it ended. -/
inductive CallPhase
  | writing (rest : List ConsentScope)
  | recorded
  | skipped (reason : SkipReason)
  | failed
  deriving DecidableEq

/-- A call of `recordRecruiterCreateDefault`; `retry` when one had failed before it. -/
structure DefaultCall where
  actorId : Nat
  now : Nat
  retry : Bool
  phase : CallPhase
  deriving DecidableEq

/-- The ledger and the calls for one talent, in the order in which they began. -/
structure DefaultSystem where
  db : ConsentDb
  calls : List DefaultCall
  deriving DecidableEq

inductive DefaultStep
  /-- A call begins and reads the ledger. -/
  | call (recruiter : Bool) (actorId now : Nat)
  /-- The next scope of call `i` is written. -/
  | write (i clock : Nat)
  /-- Call `i` fails between two transactions, or its transaction does. -/
  | fail (i : Nat)
  /-- Another grant or revoke is recorded. -/
  | record (clock : Nat) (input : RecordConsentEventInput)

/-- A grant or a revoke of a request: no HTTP request names the default's method
or one of its keys. -/
def RecordConsentEventInput.ofRequest (input : RecordConsentEventInput) : Bool :=
  input.action != .expired && input.capturedMethod != .recruiterCreateDefault &&
    match input.idempotencyKey with
    | .createDefault _ _ => false
    | .request _ => true

section Talent

variable (calendar : Calendar) (tenantId talentRecordId : Nat)

def DefaultSystem.rows (s : DefaultSystem) : List ConsentEvent :=
  talentRows s.db.events tenantId talentRecordId

/-- What the call records for a scope. -/
def defaultInput (call : DefaultCall) (scope : ConsentScope) : RecordConsentEventInput where
  tenantId := tenantId
  talentRecordId := talentRecordId
  action := .granted
  scope := scope
  capturedMethod := .recruiterCreateDefault
  capturedByActorId := some call.actorId
  consentVersion := recruiterCreateDefaultVersion
  occurredAt := call.now
  expiresAt := some (calendar.monthsAfter consentDefaultTermMonths call.now)
  metadata :=
    if scope == .contacting then ⟨some recruiterCreateDefaultChannels, none⟩ else .none
  idempotencyKey := .createDefault talentRecordId scope
  requestHash := .createDefault talentRecordId scope recruiterCreateDefaultVersion

/-- The guards at the head of a call. -/
def beginPhase (recruiter : Bool) (rows : List ConsentEvent) : CallPhase :=
  if !recruiter then .skipped .notRecruiter
  else if !(resolveHistory rows none 1 none).events.isEmpty then .skipped .consentLedgerNotEmpty
  else .writing recruiterCreateDefaultScopes

/-- The phase after a scope has been written. -/
def afterWrite (rest : List ConsentScope) : CallPhase :=
  if rest.isEmpty then .recorded else .writing rest

def DefaultSystem.setPhase (s : DefaultSystem) (i : Nat) (call : DefaultCall) (phase : CallPhase) :
    DefaultSystem :=
  { s with calls := s.calls.set i { call with phase := phase } }

/-- One iteration of the loop over the scopes; an error propagates. -/
def DefaultSystem.writeScope (s : DefaultSystem) (i clock : Nat) (call : DefaultCall)
    (scope : ConsentScope) (rest : List ConsentScope) : DefaultSystem :=
  match recordConsentEvent s.db clock
    (defaultInput calendar tenantId talentRecordId call scope) with
  | .error _ => s.setPhase i call .failed
  | .ok (db, _) => { s with db := db }.setPhase i call (afterWrite rest)

def DefaultSystem.recordOther (s : DefaultSystem) (clock : Nat) (input : RecordConsentEventInput) :
    DefaultSystem :=
  match recordConsentEvent s.db clock input with
  | .error _ => s
  | .ok (db, _) => { s with db := db }

def defaultNext (s : DefaultSystem) : DefaultStep → Option DefaultSystem
  | .call recruiter actorId now =>
    some { s with
      calls := s.calls ++ [⟨actorId, now, s.calls.any (·.phase == .failed),
        beginPhase recruiter (s.rows tenantId talentRecordId)⟩] }
  | .write i clock =>
    match s.calls[i]? with
    | some call =>
      match call.phase with
      | .writing (scope :: rest) =>
        some (s.writeScope calendar tenantId talentRecordId i clock call scope rest)
      | _ => none
    | none => none
  | .fail i =>
    match s.calls[i]? with
    | some call =>
      match call.phase with
      | .writing _ => some (s.setPhase i call .failed)
      | _ => none
    | none => none
  | .record clock input => if input.ofRequest then some (s.recordOther clock input) else none

def defaultStep (s : DefaultSystem) (a : DefaultStep) (t : DefaultSystem) : Prop :=
  defaultNext calendar tenantId talentRecordId s a = some t

/-! ## What the ledger holds of the default -/

def isDefaultGrant (e : ConsentEvent) : Bool := e.capturedMethod == .recruiterCreateDefault

def defaultRecorded (rows : List ConsentEvent) (scope : ConsentScope) : Bool :=
  rows.any fun e => isDefaultGrant e && e.scope == scope

def defaultComplete (rows : List ConsentEvent) : Bool :=
  recruiterCreateDefaultScopes.all (defaultRecorded rows)

/-- Someone else wrote to the ledger of the talent. -/
def foreignEvent (rows : List ConsentEvent) : Bool := rows.any fun e => !isDefaultGrant e

/-- The default is complete or absent, and never overrides. -/
structure CompleteOrAbsent (s : DefaultSystem) : Prop where
  once : ∀ scope ∈ recruiterCreateDefaultScopes,
    ((s.rows tenantId talentRecordId).filter fun e =>
      isDefaultGrant e && e.scope == scope).length ≤ 1
  recorded : ∀ call ∈ s.calls, call.phase = .recorded →
    defaultComplete (s.rows tenantId talentRecordId) = true
  retried : ∀ call ∈ s.calls, call.retry = true →
    call.phase = .recorded ∨ call.phase = .skipped .consentLedgerNotEmpty →
      defaultComplete (s.rows tenantId talentRecordId) = true ∨
        foreignEvent (s.rows tenantId talentRecordId) = true
  /-- Rows stand in the order in which they were committed. -/
  neverOverrides : (s.rows tenantId talentRecordId).Pairwise fun earlier later =>
    isDefaultGrant later = true → isDefaultGrant earlier = true

/-- A retry finds none or all of the default grants, or someone else's event; and
nobody writes a row for the talent, by a request that is no replay, while a call has a
scope left that is not recorded. -/
def undisturbed (s : DefaultSystem) : DefaultStep → Bool
  | .call recruiter _ _ =>
    !(recruiter && s.calls.any (·.phase == .failed)) ||
      ((s.rows tenantId talentRecordId).isEmpty ||
        defaultComplete (s.rows tenantId talentRecordId) ||
        foreignEvent (s.rows tenantId talentRecordId))
  | .record _ input =>
    !(input.tenantId == tenantId && input.talentRecordId == talentRecordId) ||
      (s.db.idempotencyKey? input.tenantId input.idempotencyKey).isSome ||
      s.calls.all fun call =>
        match call.phase with
        | .writing rest => rest.all (defaultRecorded (s.rows tenantId talentRecordId))
        | _ => true
  | .write _ _ | .fail _ => true

/-- No call has been made for the talent yet. -/
structure NoDefaultYet (s : DefaultSystem) : Prop where
  noCalls : s.calls = []
  noKeys : ∀ scope, s.db.idempotencyKey? tenantId (.createDefault talentRecordId scope) = none
  noGrants : ∀ e ∈ s.rows tenantId talentRecordId, isDefaultGrant e = false

end Talent

variable {calendar : Calendar} {tenantId talentRecordId : Nat} {s t : DefaultSystem}
  {db db' : ConsentDb} {rows : List ConsentEvent} {scope : ConsentScope} {e : ConsentEvent}
  {clock : Nat} {input : RecordConsentEventInput}

/-! ## What one step does -/

/-- A step begins a call, writes one scope of a call or finds it written, fails a call,
or records the row of a request. -/
inductive DefaultEffect (calendar : Calendar) (tenantId talentRecordId : Nat) (s : DefaultSystem) :
    DefaultStep → DefaultSystem → Prop
  | began (recruiter : Bool) (actorId now : Nat) :
    DefaultEffect calendar tenantId talentRecordId s (.call recruiter actorId now)
      { s with
        calls := s.calls ++ [⟨actorId, now, s.calls.any (·.phase == .failed),
          beginPhase recruiter (s.rows tenantId talentRecordId)⟩] }
  | wrote {i clock : Nat} {call : DefaultCall} {scope : ConsentScope} {rest : List ConsentScope}
    (hcall : s.calls[i]? = some call) (hphase : call.phase = .writing (scope :: rest))
    (hkey : s.db.idempotencyKey? tenantId (.createDefault talentRecordId scope) = none) :
    DefaultEffect calendar tenantId talentRecordId s (.write i clock)
      ({ s with db := (s.db.insertConsentEvent clock
          (defaultInput calendar tenantId talentRecordId call scope)).1 }.setPhase i call
        (afterWrite rest))
  | replayed {i clock : Nat} {call : DefaultCall} {scope : ConsentScope} {rest : List ConsentScope}
    (hcall : s.calls[i]? = some call) (hphase : call.phase = .writing (scope :: rest))
    (hkey : (s.db.idempotencyKey? tenantId (.createDefault talentRecordId scope)).isSome = true) :
    DefaultEffect calendar tenantId talentRecordId s (.write i clock)
      (s.setPhase i call (afterWrite rest))
  | failed {a : DefaultStep} {i : Nat} {call : DefaultCall} (hcall : s.calls[i]? = some call) :
    DefaultEffect calendar tenantId talentRecordId s a (s.setPhase i call .failed)
  | recorded {clock : Nat} {input : RecordConsentEventInput} (hinput : input.ofRequest = true)
    (hkey : s.db.idempotencyKey? input.tenantId input.idempotencyKey = none) :
    DefaultEffect calendar tenantId talentRecordId s (.record clock input)
      { s with db := (s.db.insertConsentEvent clock input).1 }
  | unchanged (clock : Nat) (input : RecordConsentEventInput) :
    DefaultEffect calendar tenantId talentRecordId s (.record clock input) s

theorem defaultStep_effect {a : DefaultStep}
    (h : defaultStep calendar tenantId talentRecordId s a t) :
    DefaultEffect calendar tenantId talentRecordId s a t := by
  unfold defaultStep at h
  cases a with
  | call recruiter actorId now =>
    obtain rfl := Option.some.inj h
    exact .began recruiter actorId now
  | write i clock =>
    simp only [defaultNext] at h
    split at h
    next call hcall =>
      split at h
      next scope rest hphase =>
        obtain rfl := Option.some.inj h
        unfold DefaultSystem.writeScope
        cases hrec : recordConsentEvent s.db clock
            (defaultInput calendar tenantId talentRecordId call scope) with
        | error _ => exact .failed hcall
        | ok result =>
          obtain ⟨db', response⟩ := result
          rcases recordConsentEvent_cases hrec with ⟨row, hkey, -, -, rfl⟩ | ⟨hkey, -, hins⟩
          · exact .replayed hcall hphase (Option.isSome_iff_exists.mpr ⟨row, hkey⟩)
          · have hdb := congrArg Prod.fst hins
            dsimp only at hdb ⊢
            rw [hdb]
            exact .wrote hcall hphase hkey
      · cases h
    · cases h
  | fail i =>
    simp only [defaultNext] at h
    split at h
    next call hcall =>
      split at h
      · obtain rfl := Option.some.inj h
        exact .failed hcall
      · cases h
    · cases h
  | record clock input =>
    simp only [defaultNext] at h
    split at h
    next hinput =>
      obtain rfl := Option.some.inj h
      unfold DefaultSystem.recordOther
      cases hrec : recordConsentEvent s.db clock input with
      | error _ => exact .unchanged clock input
      | ok result =>
        obtain ⟨db', response⟩ := result
        rcases recordConsentEvent_cases hrec with ⟨_, -, -, -, rfl⟩ | ⟨hkey, -, hins⟩
        · exact .unchanged clock input
        · have hdb := congrArg Prod.fst hins
          dsimp only at hdb ⊢
          rw [hdb]
          exact .recorded hinput hkey
    · cases h

/-! ## The ledger -/

/-- Every default grant has its key, there is one for a scope at most, and none comes
after a row of someone else. -/
structure DefaultLedger (tenantId talentRecordId : Nat) (db : ConsentDb) : Prop where
  keyed : ∀ scope, (db.idempotencyKey? tenantId (.createDefault talentRecordId scope)).isSome =
    defaultRecorded (talentRows db.events tenantId talentRecordId) scope
  once : ∀ scope, ((talentRows db.events tenantId talentRecordId).filter
    fun e => isDefaultGrant e && e.scope == scope).length ≤ 1
  ordered : (talentRows db.events tenantId talentRecordId).Pairwise fun earlier later =>
    isDefaultGrant later = true → isDefaultGrant earlier = true

theorem defaultRecorded_append :
    defaultRecorded (rows ++ [e]) scope =
      (defaultRecorded rows scope || (isDefaultGrant e && e.scope == scope)) := by
  simp [defaultRecorded]

theorem foreignEvent_append : foreignEvent (rows ++ [e]) =
    (foreignEvent rows || !isDefaultGrant e) := by
  simp [foreignEvent]

theorem filter_default_of_not_recorded (h : defaultRecorded rows scope = false) :
    rows.filter (fun e => isDefaultGrant e && e.scope == scope) = [] := by
  rw [filter_eq_nil_iff]
  intro e he hp
  have hrec : defaultRecorded rows scope = true := any_eq_true.mpr ⟨e, he, hp⟩
  rw [h] at hrec
  cases hrec

theorem isDefaultGrant_of_not_foreign (h : foreignEvent rows = false) :
    ∀ e ∈ rows, isDefaultGrant e = true := by
  intro e he
  by_contra hnot
  have hforeign : foreignEvent rows = true := any_eq_true.mpr ⟨e, he, by simpa using hnot⟩
  rw [h] at hforeign
  cases hforeign

theorem insert_rows (tenantId talentRecordId : Nat) (db : ConsentDb) (clock : Nat)
    (input : RecordConsentEventInput) :
    talentRows (db.insertConsentEvent clock input).1.events tenantId talentRecordId =
      talentRows db.events tenantId talentRecordId ++
        if input.tenantId = tenantId ∧ input.talentRecordId = talentRecordId then
          [consentEventOf input db.nextId clock]
        else [] := by
  rw [insertConsentEvent_events, talentRows_append, talentRows_singleton]
  rfl

theorem isDefaultGrant_of_ofRequest (id clock : Nat) (h : input.ofRequest = true) :
    isDefaultGrant (consentEventOf input id clock) = false := by
  simp only [RecordConsentEventInput.ofRequest, Bool.and_eq_true, bne_iff_ne] at h
  simpa [isDefaultGrant, consentEventOf] using h.1.2

theorem idempotencyKey_ne_of_ofRequest (h : input.ofRequest = true) :
    input.idempotencyKey ≠ .createDefault talentRecordId scope := by
  intro hkey
  simp [RecordConsentEventInput.ofRequest, hkey] at h

theorem DefaultLedger.recorded (h : DefaultLedger tenantId talentRecordId db)
    (hinput : input.ofRequest = true) (clock : Nat) :
    DefaultLedger tenantId talentRecordId (db.insertConsentEvent clock input).1 := by
  have hnot := isDefaultGrant_of_ofRequest db.nextId clock hinput
  have hsame : ∀ scope, defaultRecorded
      (talentRows (db.insertConsentEvent clock input).1.events tenantId talentRecordId) scope =
        defaultRecorded (talentRows db.events tenantId talentRecordId) scope := by
    intro scope
    rw [insert_rows]
    split
    · rw [defaultRecorded_append, hnot, Bool.false_and, Bool.or_false]
    · rw [append_nil]
  constructor
  · intro scope
    have hkey : ¬ (input.tenantId = tenantId ∧
        input.idempotencyKey = .createDefault talentRecordId scope) :=
      fun hk => idempotencyKey_ne_of_ofRequest hinput hk.2
    rw [hsame, insertConsentEvent_idempotencyKey?, if_neg hkey, Option.or_none]
    exact h.keyed scope
  · intro scope
    rw [insert_rows, filter_append]
    split
    · have hdrop : [consentEventOf input db.nextId clock].filter
          (fun e => isDefaultGrant e && e.scope == scope) = [] := by
        simp [hnot]
      rw [hdrop, append_nil]
      exact h.once scope
    · rw [filter_nil, append_nil]
      exact h.once scope
  · rw [insert_rows]
    split
    · refine pairwise_append.mpr ⟨h.ordered, pairwise_singleton _ _, ?_⟩
      intro a _ b hb hdefault
      rw [mem_singleton.mp hb, hnot] at hdefault
      cases hdefault
    · rw [append_nil]
      exact h.ordered

variable {call : DefaultCall}

theorem DefaultLedger.wrote (h : DefaultLedger tenantId talentRecordId db)
    (hkey : db.idempotencyKey? tenantId (.createDefault talentRecordId scope) = none)
    (hforeign : foreignEvent (talentRows db.events tenantId talentRecordId) = false) (clock : Nat) :
    DefaultLedger tenantId talentRecordId (db.insertConsentEvent clock
      (defaultInput calendar tenantId talentRecordId call scope)).1 := by
  have hnew : defaultRecorded (talentRows db.events tenantId talentRecordId) scope = false := by
    rw [← h.keyed scope, hkey]
    rfl
  have hrows := insert_rows tenantId talentRecordId db clock
    (defaultInput calendar tenantId talentRecordId call scope)
  rw [if_pos ⟨rfl, rfl⟩] at hrows
  have hdefault : isDefaultGrant (consentEventOf
      (defaultInput calendar tenantId talentRecordId call scope) db.nextId clock) = true := rfl
  have hscope : (consentEventOf (defaultInput calendar tenantId talentRecordId call scope)
      db.nextId clock).scope = scope := rfl
  constructor
  · intro scope'
    rw [hrows, defaultRecorded_append, hdefault, hscope, ← h.keyed scope',
      insertConsentEvent_idempotencyKey?]
    by_cases heq : scope = scope'
    · subst heq
      have hkey' : (defaultInput calendar tenantId talentRecordId call scope).idempotencyKey =
          .createDefault talentRecordId scope := rfl
      rw [hkey, if_pos ⟨rfl, hkey'⟩]
      simp
    · have hne : ¬ ((defaultInput calendar tenantId talentRecordId call scope).tenantId = tenantId ∧
          (defaultInput calendar tenantId talentRecordId call scope).idempotencyKey =
            .createDefault talentRecordId scope') := by
        rintro ⟨-, hk⟩
        exact heq (IdempotencyKey.createDefault.inj hk).2
      rw [if_neg hne, Option.or_none]
      simp [heq]
  · intro scope'
    rw [hrows, filter_append]
    by_cases heq : scope = scope'
    · subst heq
      rw [filter_default_of_not_recorded hnew, nil_append]
      exact length_filter_le _ _
    · have hdrop : [consentEventOf (defaultInput calendar tenantId talentRecordId call scope)
          db.nextId clock].filter (fun e => isDefaultGrant e && e.scope == scope') = [] := by
        simp [hdefault, hscope, heq]
      rw [hdrop, append_nil]
      exact h.once scope'
  · rw [hrows]
    refine pairwise_append.mpr ⟨h.ordered, pairwise_singleton _ _, ?_⟩
    intro a ha _ _ _
    exact isDefaultGrant_of_not_foreign hforeign a ha

/-! ## The calls -/

/-- What a call knows of the ledger: what it has written, that nobody else wrote while
it has a scope left to record, and how it ended. -/
def CallSound (rows : List ConsentEvent) (call : DefaultCall) : Prop :=
  match call.phase with
  | .writing rest =>
    (∃ done, recruiterCreateDefaultScopes = done ++ rest ∧
      ∀ scope ∈ done, defaultRecorded rows scope = true) ∧
    (foreignEvent rows = true → ∀ scope ∈ rest, defaultRecorded rows scope = true)
  | .recorded => defaultComplete rows = true
  | .skipped .consentLedgerNotEmpty =>
    call.retry = true → defaultComplete rows = true ∨ foreignEvent rows = true
  | .skipped .notRecruiter | .failed => True

/-- The ledger has grown, by someone else's row only when no scope is left to record. -/
theorem CallSound.append (h : CallSound rows call)
    (hother : ∀ rest, call.phase = .writing rest → isDefaultGrant e = false →
      ∀ scope ∈ rest, defaultRecorded rows scope = true) : CallSound (rows ++ [e]) call := by
  have hrec : ∀ scope, defaultRecorded rows scope = true →
    defaultRecorded (rows ++ [e]) scope = true := by
    intro scope hscope
    rw [defaultRecorded_append, hscope, Bool.true_or]
  have hcomplete : defaultComplete rows = true → defaultComplete (rows ++ [e]) = true := by
    intro hc
    exact all_eq_true.mpr fun scope hscope => hrec scope (all_eq_true.mp hc scope hscope)
  unfold CallSound at h ⊢
  split at h
  next rest hphase =>
    obtain ⟨⟨done, hdone, hwritten⟩, hleft⟩ := h
    refine ⟨⟨done, hdone, fun scope hscope => hrec scope (hwritten scope hscope)⟩, ?_⟩
    intro hf scope hscope
    rw [foreignEvent_append, Bool.or_eq_true, Bool.not_eq_true'] at hf
    rcases hf with hold | hnot
    · exact hrec scope (hleft hold scope hscope)
    · exact hrec scope (hother rest hphase hnot scope hscope)
  · exact hcomplete h
  · intro hretry
    rw [foreignEvent_append, Bool.or_eq_true]
    exact (h hretry).imp hcomplete .inl
  · exact trivial
  · exact trivial

theorem CallSound.next {rest : List ConsentScope}
    (h : CallSound rows call) (hphase : call.phase = .writing (scope :: rest))
    (hscope : defaultRecorded rows scope = true) :
    CallSound rows { call with phase := afterWrite rest } := by
  simp only [CallSound, hphase] at h
  obtain ⟨⟨done, hdone, hwritten⟩, hleft⟩ := h
  have hmore : ∀ sc ∈ done ++ [scope], defaultRecorded rows sc = true := by
    intro sc hsc
    rcases mem_append.mp hsc with hin | hin
    · exact hwritten sc hin
    · rw [mem_singleton.mp hin]
      exact hscope
  cases rest with
  | nil =>
    show defaultComplete rows = true
    refine all_eq_true.mpr fun sc hsc => hmore sc ?_
    rw [hdone] at hsc
    exact hsc
  | cons next rest =>
    refine ⟨⟨done ++ [scope], ?_, hmore⟩, fun hf sc hsc => hleft hf sc (mem_cons_of_mem _ hsc)⟩
    rw [hdone, append_assoc]
    rfl

structure DefaultInv (tenantId talentRecordId : Nat) (s : DefaultSystem) : Prop where
  ledger : DefaultLedger tenantId talentRecordId s.db
  calls : ∀ call ∈ s.calls, CallSound (s.rows tenantId talentRecordId) call

theorem calls_setPhase {i : Nat} {phase : CallPhase}
    (hcalls : ∀ c ∈ s.calls, CallSound rows c)
    (hnew : CallSound rows { call with phase := phase }) :
    ∀ c ∈ (s.setPhase i call phase).calls, CallSound rows c := by
  intro c hc
  rcases mem_or_eq_of_mem_set hc with hold | rfl
  · exact hcalls c hold
  · exact hnew

theorem beginPhase_sound {recruiter : Bool}
    (hphase : call.phase = beginPhase recruiter rows)
    (hok : recruiter = true → call.retry = true →
      rows = [] ∨ defaultComplete rows = true ∨ foreignEvent rows = true) :
    CallSound rows call := by
  unfold beginPhase at hphase
  unfold CallSound
  rw [hphase]
  cases recruiter with
  | false => exact trivial
  | true =>
    rw [resolveHistory_one_isEmpty]
    cases rows with
    | nil => exact ⟨⟨[], rfl, by simp⟩, by simp [foreignEvent]⟩
    | cons e rest =>
      intro hretry
      exact (hok rfl hretry).resolve_left (by simp)

theorem DefaultInv.step {a : DefaultStep} (h : DefaultInv tenantId talentRecordId s)
    (hstep : Guarded (defaultStep calendar tenantId talentRecordId)
      (fun s a => undisturbed tenantId talentRecordId s a = true) s a t) :
    DefaultInv tenantId talentRecordId t := by
  obtain ⟨hone, hok⟩ := hstep
  cases defaultStep_effect hone with
  | began recruiter actorId now =>
    refine ⟨h.ledger, fun call hcall => ?_⟩
    rcases (mem_append.mp hcall).imp_right mem_singleton.mp with hold | rfl
    · exact h.calls call hold
    · refine beginPhase_sound rfl fun hrec hretry => ?_
      dsimp only at hretry
      simp only [undisturbed, hrec, hretry, Bool.and_self, Bool.not_true, Bool.false_or,
        Bool.or_eq_true, List.isEmpty_iff] at hok
      tauto
  | @wrote i clock call scope rest hcall hphase hkey =>
    have hmem := mem_of_getElem? hcall
    have hsound := h.calls call hmem
    have hnew : defaultRecorded (s.rows tenantId talentRecordId) scope = false := by
      have hkeyed := h.ledger.keyed scope
      rw [hkey] at hkeyed
      exact hkeyed.symm
    have hforeign : foreignEvent (s.rows tenantId talentRecordId) = false := by
      rw [Bool.eq_false_iff]
      intro hf
      simp only [CallSound, hphase] at hsound
      rw [hsound.2 hf scope mem_cons_self] at hnew
      cases hnew
    have hrows := insert_rows tenantId talentRecordId s.db clock
      (defaultInput calendar tenantId talentRecordId call scope)
    rw [if_pos ⟨rfl, rfl⟩] at hrows
    -- the row is one of the default, so nobody else wrote
    have hgrown : ∀ c ∈ s.calls, CallSound (talentRows (s.db.insertConsentEvent clock
        (defaultInput calendar tenantId talentRecordId call scope)).1.events tenantId
          talentRecordId) c := by
      intro c hc
      rw [hrows]
      exact (h.calls c hc).append fun _ _ hnot => by cases hnot
    have hwritten : defaultRecorded (talentRows (s.db.insertConsentEvent clock
        (defaultInput calendar tenantId talentRecordId call scope)).1.events tenantId
          talentRecordId) scope = true := by
      rw [hrows, defaultRecorded_append]
      simp [isDefaultGrant, consentEventOf, defaultInput]
    exact ⟨h.ledger.wrote hkey hforeign clock,
      calls_setPhase (s := s) hgrown ((hgrown call hmem).next hphase hwritten)⟩
  | @replayed i clock call scope rest hcall hphase hkey =>
    have hwritten := (h.ledger.keyed scope).symm.trans hkey
    have hsound := h.calls call (mem_of_getElem? hcall)
    exact ⟨h.ledger, calls_setPhase h.calls (hsound.next hphase hwritten)⟩
  | @failed a i call hcall =>
    exact ⟨h.ledger, calls_setPhase h.calls trivial⟩
  | @recorded clock input hinput hkey =>
    refine ⟨h.ledger.recorded hinput clock, fun c hc => ?_⟩
    have hrows := insert_rows tenantId talentRecordId s.db clock
      input
    have hnot := isDefaultGrant_of_ofRequest s.db.nextId clock hinput
    show CallSound (talentRows (s.db.insertConsentEvent clock input).1.events tenantId
      talentRecordId) c
    rw [hrows]
    split
    next hmine =>
      refine (h.calls c hc).append fun rest hphase _ => ?_
      simp only [undisturbed, hkey, Option.isSome_none, Bool.or_false] at hok
      simp only [hmine.1, hmine.2, beq_self_eq_true, Bool.and_self, Bool.not_true,
        Bool.false_or] at hok
      have hall := all_eq_true.mp hok c hc
      rw [hphase] at hall
      exact all_eq_true.mp hall
    · rw [append_nil]
      exact h.calls c hc
  | unchanged clock input => exact h

theorem NoDefaultYet.inv (h : NoDefaultYet tenantId talentRecordId s) :
    DefaultInv tenantId talentRecordId s := by
  have hnone : ∀ scope, defaultRecorded (talentRows s.db.events tenantId talentRecordId) scope =
      false := by
    intro scope
    rw [Bool.eq_false_iff]
    intro hrec
    obtain ⟨e, he, hp⟩ := any_eq_true.mp hrec
    rw [h.noGrants e he] at hp
    cases hp
  refine ⟨⟨?_, ?_, ?_⟩, ?_⟩
  · intro scope
    rw [h.noKeys scope, hnone scope]
    rfl
  · intro scope
    rw [filter_default_of_not_recorded (hnone scope)]
    exact Nat.zero_le _
  · refine pairwise_of_forall_mem_list fun a _ b hb hdefault => ?_
    rw [h.noGrants b hb] at hdefault
    cases hdefault
  · rw [h.noCalls]
    intro c hc
    cases hc

theorem DefaultInv.completeOrAbsent (h : DefaultInv tenantId talentRecordId s) :
    CompleteOrAbsent tenantId talentRecordId s where
  once scope _ := h.ledger.once scope
  recorded call hcall hphase := by
    have hsound := h.calls call hcall
    simp only [CallSound, hphase] at hsound
    exact hsound
  retried call hcall hretry hphase := by
    have hsound := h.calls call hcall
    rcases hphase with hphase | hphase
    · simp only [CallSound, hphase] at hsound
      exact .inl hsound
    · simp only [CallSound, hphase] at hsound
      exact hsound hretry
  neverOverrides := h.ledger.ordered

/-- **The at-create default**: over any order of calls, failures and requests, when no
retry finds it half recorded and nobody writes while a call has a scope left to record,
the default is complete or absent and overrides nothing. -/
theorem recruiterCreateDefault_complete_or_absent {steps : List DefaultStep}
    (hstart : NoDefaultYet tenantId talentRecordId s)
    (hrun : Run (Guarded (defaultStep calendar tenantId talentRecordId)
      fun s a => undisturbed tenantId talentRecordId s a = true) s steps t) :
    CompleteOrAbsent tenantId talentRecordId t :=
  (hrun.invariant (fun _ _ _ hinv hstep => hinv.step hstep) hstart.inv).completeOrAbsent

/-! ## Runs -/

def emptyConsentDb : ConsentDb := ⟨[], [], 0⟩

def noDefaultCalls : DefaultSystem := ⟨emptyConsentDb, []⟩

/-- A revoke of contacting by the recruiter, for talent 9 of tenant 1. -/
def contactingRevoke (occurredAt : Nat) : RecordConsentEventInput where
  tenantId := 1
  talentRecordId := 9
  action := .revoked
  scope := .contacting
  capturedMethod := .recruiterCapture
  capturedByActorId := some 5
  consentVersion := "v1"
  occurredAt := occurredAt
  expiresAt := none
  metadata := .none
  idempotencyKey := .request "0197a6d2-0000-7000-8000-000000000001"
  requestHash := .request "revoke"

theorem noDefaultCalls_start : NoDefaultYet 1 9 noDefaultCalls where
  noCalls := rfl
  noKeys _ := rfl
  noGrants e he := by cases he

/-- The first call fails before it has written anything, its retry records all three. -/
theorem retry_after_clean_failure_completes :
    ∃ s, Run (Guarded (defaultStep commonYear 1 9) fun s a => undisturbed 1 9 s a = true)
        noDefaultCalls
        [.call true 5 1768435200000, .fail 0, .call true 5 1768435260000, .write 1 1768435260001,
          .write 1 1768435260002, .write 1 1768435260003] s ∧
      CompleteOrAbsent 1 9 s ∧ defaultComplete (s.rows 1 9) = true := by
  obtain ⟨s, hrun, hp⟩ := guardedRun_of_exec (defaultNext commonYear 1 9) (fun _ _ _ h => h) _
    (undisturbed 1 9) (fun _ _ h => h) noDefaultCalls
    [.call true 5 1768435200000, .fail 0, .call true 5 1768435260000, .write 1 1768435260001,
      .write 1 1768435260002, .write 1 1768435260003]
    (fun s => defaultComplete (s.rows 1 9))
    (by decide +kernel)
  exact ⟨s, hrun, recruiterCreateDefault_complete_or_absent noDefaultCalls_start hrun, hp⟩

/-- A call that fails after its first scope is never completed: the retry skips the
talent. And a revoke recorded after the guard is followed by default grants. -/
theorem default_left_half_done_and_overrides :
    (∃ s, Run (defaultStep commonYear 1 9) noDefaultCalls
        [.call true 5 1768435200000, .write 0 1768435200001, .fail 0,
          .call true 5 1768435260000] s ∧
      (∃ call ∈ s.calls, call.retry = true ∧ call.phase = .skipped .consentLedgerNotEmpty ∧
        defaultComplete (s.rows 1 9) = false ∧ foreignEvent (s.rows 1 9) = false)) ∧
    ∃ s, Run (defaultStep commonYear 1 9) noDefaultCalls
        [.call true 5 1768435200000, .record 1768435200001 (contactingRevoke 1768435200001),
          .write 0 1768435200002] s ∧
      ¬ CompleteOrAbsent 1 9 s := by
  constructor
  · have hexec : (exec (defaultNext commonYear 1 9) noDefaultCalls
        [.call true 5 1768435200000, .write 0 1768435200001, .fail 0,
          .call true 5 1768435260000]).any (fun s =>
        (s.calls.any fun call => call.retry && call.phase == .skipped .consentLedgerNotEmpty) &&
          (!defaultComplete (s.rows 1 9) && !foreignEvent (s.rows 1 9))) = true := by
      decide +kernel
    obtain ⟨s, hrun, hp⟩ := run_of_exec (fun _ _ _ h => h) hexec
    simp only [Bool.and_eq_true, any_eq_true, beq_iff_eq, Bool.not_eq_true'] at hp
    obtain ⟨⟨call, hcall, hretry, hphase⟩, hhalf, hown⟩ := hp
    exact ⟨s, hrun, call, hcall, hretry, hphase, hhalf, hown⟩
  · have hexec : (exec (defaultNext commonYear 1 9) noDefaultCalls
        [.call true 5 1768435200000, .record 1768435200001 (contactingRevoke 1768435200001),
          .write 0 1768435200002]).any (fun s =>
        decide ¬ (s.rows 1 9).Pairwise fun earlier later =>
          isDefaultGrant later = true → isDefaultGrant earlier = true) = true := by
      decide +kernel
    obtain ⟨s, hrun, hp⟩ := run_of_exec (fun _ _ _ h => h) hexec
    exact ⟨s, hrun, fun h => of_decide_eq_true hp h.neverOverrides⟩

end AramoPlatform.Consent
