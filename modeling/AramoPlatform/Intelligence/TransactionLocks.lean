import AramoPlatform.Intelligence.IdentityEffects
import AramoPlatform.Intelligence.RequestIdentifiers

/-!
# The locks of a transaction

Every transaction takes its advisory locks before its first statement and holds
them to its end, so transactions that share a key follow one another. A row
becomes the verified binding of an identifier only under the identifier's lock.
-/

namespace AramoPlatform.Intelligence

open Js Lib List

/-! ## Lock keys -/

def referenceLockKey (t : SourceTuple) : JsString :=
  js "ref:" ++ t.sourceSystemId ++ js "|" ++ t.sourceTenantId ++ js "|" ++ t.externalTalentId

def identifierLockKey (key : IdentifierKey) : JsString := js "id:" ++ key.text

def subjectLockKey (id : Nat) : JsString := js "subject:" ++ idText id

/-- The keys of the snapshot's reference and of its verified identifiers. -/
def ingestLockKeys (req : TalentIngestRequest) (input : ResolutionInput) : List JsString :=
  referenceLockKey req.tuple ::
    (input.identifiers.filter (·.verified)).map fun i => identifierLockKey i.key

/-- `lockKeys` of each unit of work. A row that decides a key is read before the
transaction; the columns read there never change. -/
def lockKeys (env : GoldenEnv) (db : GoldenDb) : GoldenOp → List JsString
  | .ingest req _ _ =>
      match toResolutionInput env.host env.tokenKey req with
      | .ok input => ingestLockKeys req input
      | .error _ => []
  | .erase req _ _ => [referenceLockKey req.tuple]
  | .createVerification .. => []
  | .confirm id _ _ =>
      match db.verification? id with
      | some peek => [js "verification:" ++ idText id, identifierLockKey peek.key]
      | none => []
  | .relink subjectId _ => [subjectLockKey subjectId]
  | .rebuild subjectId _ => [js "projection:" ++ idText subjectId]
  | .openDispute req _ _ => [js "dispute-assertion:" ++ idText req.assertionId]
  | .respond id _ _ _ => [js "dispute:" ++ idText id]
  | .withdraw id _ _ _ _ => [js "dispute:" ++ idText id]
  | .disputeAction _ _ _ id _ _ => [js "dispute:" ++ idText id]
  | .resolveContradiction _ assertionId _ _ _ _ =>
      match db.assertion? assertionId with
      | some peek => [js "projection:" ++ idText peek.subjectId]
      | none => []
  | .merge fromId intoId _ _ => [subjectLockKey fromId, subjectLockKey intoId]
  | .split subjectId _ _ _ => [subjectLockKey subjectId]
  | .restore subjectId _ _ _ => [subjectLockKey subjectId]
  | .entitle tenant _ => [js "entitlements:" ++ tenant.sourceSystemId]

/-! ## Bindings -/

/-- Neither a merge, nor a split, nor a restore. -/
def GoldenOp.keepsSubjects : GoldenOp → Bool
  | .merge .. | .split .. | .restore .. => false
  | _ => true

/-- The row is the active verified binding of its key, and was not before. -/
def NewlyBound (db : GoldenDb) (i : SubjectIdentifier) : Prop :=
  i.activeVerified = true ∧ ∀ j ∈ db.identifiers, j.id = i.id → j.activeVerified = false

section Steps

variable {env : GoldenEnv} {host : Host} {db db' : GoldenDb}

variable {i : SubjectIdentifier}

theorem verified_of_newlyBound {input : ResolutionInput} {facts : ResolutionFacts} {now : Nat}
    (horder : IdentityInOrder db) (hfacts : gatherFacts db input = .ok facts)
    (hi : i ∈ (applyDecision host db input now facts).2.identifiers)
    (hnew : NewlyBound db i) : ∃ id ∈ input.identifiers, id.verified = true ∧ id.key = i.key := by
  obtain ⟨mid, hmid, hrecorded⟩ := (applyDecision_spec host horder hfacts now).recorded
  have hactive : i.status = .active := by
    have hbound := hnew.1
    simp only [SubjectIdentifier.activeVerified, Bool.and_eq_true, beq_iff_eq] at hbound
    exact hbound.1
  have hverified : i.verificationStatus = .verified := by
    have hbound := hnew.1
    simp only [SubjectIdentifier.activeVerified, Bool.and_eq_true, beq_iff_eq] at hbound
    exact hbound.2
  have hown : i.ownedBy (applyDecision host db input now facts).1.referenceId = true := by
    by_contra hnot
    -- a row of another source is as it was
    have hforeign : i.foreignTo (applyDecision host db input now facts).1.referenceId = true := by
      simp only [SubjectIdentifier.ownedBy, SubjectIdentifier.foreignTo, hactive, beq_self_eq_true,
        Bool.and_true, Bool.true_and, beq_iff_eq, bne_iff_ne] at hnot ⊢
      exact hnot
    have hold := mem_filter.mpr ⟨hi, hforeign⟩
    rw [hrecorded.foreign, hmid] at hold
    have hbefore := hnew.2 i (mem_of_mem_filter hold) rfl
    rw [hnew.1] at hbefore
    cases hbefore
  obtain ⟨id, hid, hkey⟩ := mem_map.mp (hrecorded.covered i hi hown)
  obtain ⟨x, hx, hxown, hsettled⟩ := hrecorded.settled id hid
  obtain rfl : x = i := hrecorded.order.own x hx i hi _ hxown hown (hsettled.key.trans hkey)
  have hidv : id.verified = true := by
    rw [← Bool.not_eq_false]
    exact fun hfalse => hsettled.released hfalse hverified
  obtain ⟨y, hy, hyk, hyv⟩ := (verified_iff hid).mp hidv
  exact ⟨y, hy, hyv, hyk.trans hkey⟩

theorem newlyBound_createIdentifier {row i : SubjectIdentifier}
    (hi : i ∈ (db.createIdentifier row).identifiers) (hnew : NewlyBound db i) :
      i.key = row.key := by
  rcases mem_append.mp hi with hi | hi
  · have hbefore := hnew.2 i hi rfl
    rw [hnew.1] at hbefore
    cases hbefore
  · rw [mem_singleton.mp hi]

theorem not_newlyBound_of_same (hsame : db'.identifiers = db.identifiers)
    (hi : i ∈ db'.identifiers) : ¬ NewlyBound db i := by
  rintro ⟨hbound, hbefore⟩
  rw [hbefore i (hsame ▸ hi) rfl] at hbound
  cases hbound

theorem key_of_confirmed {id : Nat} {code : JsString} {now : Nat} {tx : ConfirmTx}
    (h : confirmVerification host db id code now = .ok (tx, db'))
    (hi : i ∈ db'.identifiers) (hnew : NewlyBound db i) :
    ∃ req, db.verification? id = some req ∧ i.key = req.key := by
  have hnone : db'.identifiers = db.identifiers → ∃ req, db.verification? id = some req ∧
      i.key = req.key := fun hsame => absurd hnew (not_newlyBound_of_same hsame hi)
  rcases confirm_cases h with ⟨-, hrefused⟩ | ⟨req, subject, hreq, -, hbind⟩
  · exact hnone (hrefused.frame (t := .identifiers) (by decide))
  · rcases (bindSubject_spec hbind).2 with hsame | ⟨subjectId, rfl, hcreated⟩
    · exact hnone hsame
    · rw [hcreated] at hi
      exact ⟨req, hreq, newlyBound_createIdentifier hi hnew⟩

/-- **Bound under the lock**: a transaction that makes a row the verified
binding of a key holds the key's lock. -/
theorem lock_of_newlyBound {op : GoldenOp} (hop : op.keepsSubjects = true)
    (horder : IdentityInOrder db) (h : GoldenStep env db op db') (hi : i ∈ db'.identifiers)
    (hnew : NewlyBound db i) : identifierLockKey i.key ∈ lockKeys env db op := by
  by_cases htable : GoldenTable.identifiers ∈ op.tables
  · cases op with
    | ingest req principal now =>
      obtain ⟨out, hout, rfl⟩ := map_eq_ok.mp h
      obtain ⟨-, input, hinput, ⟨_, _, -, -, -, rfl⟩ | ⟨-, happly⟩⟩ := ingest_eq_ok.mp hout
      · exact absurd hnew (not_newlyBound_of_same rfl hi)
      · obtain ⟨facts, hfacts, -, hsame⟩ := resolved_of_applySnapshot happly
        rw [hsame.identifiers] at hi
        obtain ⟨id, hid, hv, hkey⟩ := verified_of_newlyBound horder hfacts hi hnew
        simp only [lockKeys, hinput]
        refine mem_cons_of_mem _ (mem_map.mpr ⟨id, mem_filter.mpr ⟨hid, hv⟩, ?_⟩)
        rw [hkey]
    | confirm id code now =>
      obtain ⟨out, hout, rfl⟩ := map_eq_ok.mp h
      obtain ⟨req, hreq, hkey⟩ := key_of_confirmed hout hi hnew
      simp only [lockKeys, hreq, hkey]
      exact mem_cons_of_mem _ (mem_singleton.mpr rfl)
    | merge | split | restore => cases hop
    | erase | createVerification | relink | rebuild | openDispute | respond | withdraw
    | disputeAction | resolveContradiction | entitle => simp [GoldenOp.tables] at htable
  · exact absurd hnew (not_newlyBound_of_same ((statements_of_step h).frame htable) hi)

end Steps

end AramoPlatform.Intelligence
