import AramoPlatform.Intelligence.Disputes
import AramoPlatform.Intelligence.MergeSplit
import AramoPlatform.Intelligence.Verification
import AramoPlatform.Js.Objects
import AramoPlatform.Lib.Runs

/-!
# Runs over the golden model

Every transaction of the intelligence core as one operation on the database.
The parts of a service call that run after its commit, the rebuild of the
projection and the merges that a confirmation asks for, are operations of
their own, so they may come at any later time or never.
-/

namespace AramoPlatform.Intelligence

open Js Lib

/-- What a deployment is configured with. -/
structure GoldenEnv where
  host : Host
  /-- The key of the government identifier tokens, when there is one. -/
  tokenKey : Option JsString
  /-- The key of the verification codes. -/
  codeKey : JsString
  /-- `TI_CROSS_TENANT_READ_ENABLED`. -/
  crossTenant : Bool
  /-- `TI_AVAILABILITY_FRESHNESS_DAYS`. -/
  freshnessDays : ℚ

inductive GoldenOp where
  | ingest (req : TalentIngestRequest) (principal : IngestPrincipal) (now : Nat)
  | erase (req : TalentErasedRequest) (principal : IngestPrincipal) (now : Nat)
  | createVerification (salt : JsString) (req : CreateVerificationRequest)
      (principal : IngestPrincipal) (now : Nat)
  | confirm (id : Nat) (code : JsString) (now : Nat)
  | relink (subjectId : Nat) (key : IdentifierKey)
  | rebuild (subjectId now : Nat)
  | openDispute (req : OpenDisputeRequest) (principal : IngestPrincipal) (now : Nat)
  | respond (id : Nat) (portalContext : SourceTuple) (statement : JsString)
      (principal : IngestPrincipal)
  | withdraw (id : Nat) (portalContext : SourceTuple) (actor : Option JsString)
      (principal : IngestPrincipal) (now : Nat)
  | disputeAction (principal : IngestPrincipal) (sourceTenantId actor : JsString) (id : Nat)
      (action : TenantAction) (now : Nat)
  | resolveContradiction (tuple : SourceTuple) (assertionId : Nat)
      (resolution : ContradictionResolution) (actor : JsString) (principal : IngestPrincipal)
      (now : Nat)
  | merge (fromId intoId : Nat) (actor reason : JsString)
  | split (subjectId : Nat) (selection : MovedSet) (actor reason : JsString)
  | restore (subjectId eventId : Nat) (actor reason : JsString)
  | entitle (tenant : TenantKey) (active : Bool)

/-- `entitlements.upsert`. -/
def entitleTenant (db : GoldenDb) (tenant : TenantKey) (active : Bool) : GoldenDb :=
  { db with
    entitlements :=
      if db.entitlements.any (·.tenant == tenant) then
        updateWhere (·.tenant == tenant) (fun e => { e with active := active }) db.entitlements
      else db.entitlements ++ [⟨tenant, active⟩] }

/-- The database after an operation; a refused one rolls back. -/
def goldenResult (env : GoldenEnv) (db : GoldenDb) : GoldenOp → Except GoldenError GoldenDb
  | .ingest req principal now =>
      (ingest env.host env.tokenKey db req principal now).map Prod.snd
  | .erase req principal now => (erase db req principal now).map Prod.snd
  | .createVerification salt req principal now =>
      (createVerificationRequest env.host env.codeKey salt db req principal now).map Prod.snd
  | .confirm id code now => (confirmVerification env.host db id code now).map Prod.snd
  | .relink subjectId key => (relink env.host db subjectId key).map Prod.snd
  | .rebuild subjectId now => rebuild env.host db env.freshnessDays subjectId now
  | .openDispute req principal now => (openDispute env.host db req principal now).map Prod.snd
  | .respond id portalContext statement principal =>
      (respond env.host db id portalContext statement principal).map Prod.snd
  | .withdraw id portalContext actor principal now =>
      (withdraw db id portalContext actor principal now).map Prod.snd
  | .disputeAction principal sourceTenantId actor id action now =>
      (tenantAction env.host db env.crossTenant principal sourceTenantId actor id action now).map
        Prod.snd
  | .resolveContradiction tuple assertionId resolution actor principal now =>
      (resolveContradiction env.host db env.crossTenant env.freshnessDays tuple assertionId
        resolution actor principal now).map Prod.snd
  | .merge fromId intoId actor reason =>
      (mergeSubjects db fromId intoId actor reason).map Prod.snd
  | .split subjectId selection actor reason =>
      (splitSelection db subjectId selection actor reason).map Prod.snd
  | .restore subjectId eventId actor reason =>
      (restoreMerge db subjectId eventId actor reason).map Prod.snd
  | .entitle tenant active => .ok (entitleTenant db tenant active)

/-- One successful transaction. -/
def GoldenStep (env : GoldenEnv) (db : GoldenDb) (op : GoldenOp) (db' : GoldenDb) : Prop :=
  goldenResult env db op = .ok db'

/-- The operation as a function on the database, when it succeeds. -/
def goldenNext (env : GoldenEnv) (db : GoldenDb) (op : GoldenOp) : Option GoldenDb :=
  (goldenResult env db op).toOption

theorem goldenStep_of_next (env : GoldenEnv) (db : GoldenDb) (op : GoldenOp) (db' : GoldenDb)
    (h : goldenNext env db op = some db') : GoldenStep env db op db' := by
  unfold goldenNext at h
  unfold GoldenStep
  cases hres : goldenResult env db op with
  | error e => rw [hres] at h; cases h
  | ok t =>
    rw [hres] at h
    exact congrArg Except.ok (Option.some.inj h)

theorem goldenRun_of_exec (env : GoldenEnv) (db : GoldenDb) (ops : List GoldenOp)
    (p : GoldenDb → Bool) (h : (exec (goldenNext env) db ops).any p = true) :
    ∃ t, Run (GoldenStep env) db ops t ∧ p t = true :=
  run_of_exec (goldenStep_of_next env) h

/-! ## A small deployment

One source system, a host that hashes and folds nothing, and a talent with a
name: what the runs on fixed inputs start from. -/

/-- The order of integers by their values, and of one value by its texts. -/
def numLe (a b : JsNum) : Bool :=
  match integerOf a, integerOf b with
  | some x, some y => x < y || (x == y && unitsLe a.text b.text)
  | some _, none => false
  | none, some _ => true
  | none, none => unitsLe a.text b.text

def plainHost : Host :=
  { sha256Hex := id, hmacSha256Hex := fun _ message => message, normalizeNFKD := id
    toLowerCase := id, toUpperCase := id, max := fun a b => if numLe a b then b else a }

def plainEnv : GoldenEnv := ⟨plainHost, none, js "key", false, 30⟩

def anAts : IngestPrincipal := ⟨js "ats", js "ATS"⟩

def ann : SourceTuple := ⟨js "ATS", js "T1", js "ann"⟩

/-- A snapshot that says a name. -/
def nameSnapshot (tuple : SourceTuple) (eventId : String) : TalentIngestRequest :=
  ⟨tuple, js eventId, 0, ⟨some ⟨some (js "Ann"), none, none⟩, [], [], []⟩, []⟩

end AramoPlatform.Intelligence
