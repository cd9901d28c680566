import AramoPlatform.Js.TreeForm
import AramoPlatform.Lib.HashChain

/-!
# The signature event hash chain

`hash-chain.ts`: the payload of an event in the key order of a jsonb column
(`jsonbCanonical`), the hash of an event over its predecessor's hash and its
core (`computeEventHash`), and the verifier (`verifyEventChain`). SHA-256 is
a parameter: the digest of a text as base64url.

The section on `jsonbCanonical` says what the canonical form of an object
holds: exactly its defined members other than `__proto__`, which the rebuild
`out[k] = …` sends to the prototype setter.
-/

namespace AramoPlatform.Sign

open Js Lib List

/-- The 128-bit number a UUID stands for, in the order of the `uuid` type. -/
abbrev Uuid := Nat

/-! ## jsonb key order -/

/-- `Buffer.compare`. -/
def bufferCompare : List Nat → List Nat → Int
  | [], [] => 0
  | [], _ :: _ => -1
  | _ :: _, [] => 1
  | a :: as, b :: bs => if a < b then -1 else if b < a then 1 else bufferCompare as bs

/-- Shorter keys first, then bytewise. -/
def jsonbKeyCompare (a b : JsString) : Int :=
  let d : Int := (utf8 a).length - (utf8 b).length
  if d ≠ 0 then d else bufferCompare (utf8 a) (utf8 b)

section KeyOrder

variable {α : Type}

/-- The order `sort(jsonbKeyCompare)` puts members in. -/
def jsonbKeyLe (m m' : JsString × α) : Prop := jsonbKeyCompare m.1 m'.1 ≤ 0

instance : DecidableRel (@jsonbKeyLe α) := fun m m' =>
  inferInstanceAs (Decidable (jsonbKeyCompare m.1 m'.1 ≤ 0))

theorem bufferCompare_total (x y : List Nat) : bufferCompare x y ≤ 0 ∨ bufferCompare y x ≤ 0 := by
  induction x generalizing y with
  | nil => cases y <;> simp [bufferCompare]
  | cons a x ih =>
    cases y with
    | nil => simp [bufferCompare]
    | cons b y =>
      simp only [bufferCompare]
      have := ih y
      grind

theorem bufferCompare_trans {x y z : List Nat} (h : bufferCompare x y ≤ 0)
    (h' : bufferCompare y z ≤ 0) : bufferCompare x z ≤ 0 := by
  induction x generalizing y z with
  | nil => cases z <;> simp [bufferCompare]
  | cons a x ih =>
    cases y with
    | nil => simp [bufferCompare] at h
    | cons b y =>
      cases z with
      | nil => simp [bufferCompare] at h'
      | cons c z =>
        simp only [bufferCompare] at h h' ⊢
        have hrec := @ih y z
        grind

theorem bufferCompare_antisymm {x y : List Nat} (h : bufferCompare x y ≤ 0)
    (h' : bufferCompare y x ≤ 0) : x = y := by
  induction x generalizing y with
  | nil =>
    cases y with
    | nil => rfl
    | cons b y => simp [bufferCompare] at h'
  | cons a x ih =>
    cases y with
    | nil => simp [bufferCompare] at h
    | cons b y =>
      simp only [bufferCompare] at h h'
      have hrec := @ih y
      grind

instance : Std.Total (@jsonbKeyLe α) := ⟨fun m m' => by
  simp only [jsonbKeyLe, jsonbKeyCompare]
  have := bufferCompare_total (utf8 m.1) (utf8 m'.1)
  grind⟩

instance : IsTrans (JsString × α) jsonbKeyLe := ⟨fun a b c h h' => by
  simp only [jsonbKeyLe, jsonbKeyCompare] at h h' ⊢
  have := @bufferCompare_trans (utf8 a.1) (utf8 b.1) (utf8 c.1)
  grind⟩

theorem utf8_eq_of_jsonbKeyLe {m m' : JsString × α} (h : jsonbKeyLe m m')
    (h' : jsonbKeyLe m' m) : utf8 m.1 = utf8 m'.1 := by
  simp only [jsonbKeyLe, jsonbKeyCompare] at h h'
  have := @bufferCompare_antisymm (utf8 m.1) (utf8 m'.1)
  grind

end KeyOrder

/-! ## `jsonbCanonical` -/

/-- `if (obj[k] !== undefined) out[k] = …`. -/
def assignDefined (out : List (JsString × JsVal)) (m : JsString × JsVal) :
    List (JsString × JsVal) :=
  if m.2.isUndefined then out else assign out m

mutual
/-- The value with every object's keys in PostgreSQL jsonb storage order. -/
def jsonbCanonical : JsVal → JsVal
  | .arr elems => .arr (canonicalElems elems)
  | .obj members =>
      .obj (((ownKeys (canonicalMembers members)).insertionSort jsonbKeyLe).foldl assignDefined [])
  | v => v
termination_by structural v => v

def canonicalElems : List JsVal → List JsVal
  | [] => []
  | v :: rest => jsonbCanonical v :: canonicalElems rest
termination_by structural l => l

/-- The members with each value in canonical form. Neither the order of the
keys nor which of them are undefined depends on it. -/
def canonicalMembers : List (JsString × JsVal) → List (JsString × JsVal)
  | [] => []
  | (k, v) :: rest => (k, jsonbCanonical v) :: canonicalMembers rest
termination_by structural l => l
end

/-- The tree that `JSON.stringify(jsonbCanonical(v))` is written from. -/
def canonicalJson (v : JsVal) : Json := toJson (jsonbCanonical v)

theorem canonicalElems_eq (l : List JsVal) : canonicalElems l = l.map jsonbCanonical := by
  induction l with
  | nil => simp [canonicalElems]
  | cons v rest ih => simp [canonicalElems, ih]

theorem canonicalMembers_eq (ms : List (JsString × JsVal)) :
    canonicalMembers ms = ms.map fun m => (m.1, jsonbCanonical m.2) := by
  induction ms with
  | nil => simp [canonicalMembers]
  | cons m rest ih => simp [canonicalMembers, ih]

@[simp] theorem isUndefined_jsonbCanonical (v : JsVal) :
    (jsonbCanonical v).isUndefined = v.isUndefined := by
  cases v <;> simp [jsonbCanonical, JsVal.isUndefined]

theorem foldl_assignDefined (ms out : List (JsString × JsVal)) :
    ms.foldl assignDefined out = (ms.filter fun m => !m.2.isUndefined).foldl assign out := by
  induction ms generalizing out with
  | nil => rfl
  | cons m rest ih => by_cases hm : m.2.isUndefined <;> simp [assignDefined, hm, ih]

/-- The members the canonical form keeps. -/
def kept (m : JsString × JsVal) : Bool := !m.2.isUndefined && m.1 != protoKey

variable {ms : List (JsString × JsVal)}

theorem jsonbCanonical_obj (hnd : (ms.map Prod.fst).Nodup) :
    jsonbCanonical (.obj ms) =
      .obj (((ownKeys (canonicalMembers ms)).insertionSort jsonbKeyLe).filter kept) := by
  let sorted := (ownKeys (canonicalMembers ms)).insertionSort jsonbKeyLe
  have hkeys : ((canonicalMembers ms).map Prod.fst) = ms.map Prod.fst := by
    simp [canonicalMembers_eq, Function.comp_def]
  have hsorted : (sorted.map Prod.fst).Nodup := by
    have hperm : sorted.Perm (canonicalMembers ms) :=
      (perm_insertionSort _ _).trans (perm_ownKeys _)
    rw [(hperm.map Prod.fst).nodup_iff, hkeys]
    exact hnd
  have hdefined : ((sorted.filter fun m => !m.2.isUndefined).map Prod.fst).Nodup :=
    hsorted.sublist (filter_sublist.map Prod.fst)
  rw [jsonbCanonical, foldl_assignDefined, foldl_assign _ _ (by simpa using hdefined)]
  simp only [nil_append, filter_filter]
  congr 2
  funext m
  by_cases hm : m.1 = protoKey <;> simp [kept, hm]

/-- The kept members, each with the tree of its value. -/
def keptJson (ms : List (JsString × JsVal)) : List (JsString × Json) :=
  (ms.filter kept).map fun m => (m.1, canonicalJson m.2)

/-- The tree of an object: its kept members in jsonb order, which `out` then
enumerates once more. -/
theorem canonicalJson_obj (hnd : (ms.map Prod.fst).Nodup) :
    canonicalJson (.obj ms) =
      .obj (ownKeys ((ownKeys (keptJson ms)).insertionSort jsonbKeyLe)) := by
  have hdefined : ∀ l : List (JsString × JsVal),
      (l.filter kept).filter (fun m => !m.2.isUndefined) = l.filter kept := by
    intro l
    rw [filter_filter]
    congr 1
    funext m
    cases hm : m.2.isUndefined <;> simp [kept, hm]
  have hkept : (canonicalMembers ms).filter kept =
      (ms.filter kept).map fun m => (m.1, jsonbCanonical m.2) := by
    rw [canonicalMembers_eq, filter_map]
    congr 2
    funext m
    simp [kept]
  rw [canonicalJson, jsonbCanonical_obj hnd, toJson, toJsonMembers_eq, hdefined,
    filter_insertionSort, ← ownKeys_filter, hkept,
    map_insertionSort jsonbKeyLe jsonbKeyLe (fun m => (m.1, toJson m.2)) _
      (fun a _ b _ => Iff.rfl),
    map_ownKeys (fun m => (m.1, toJson m.2)) (fun _ => rfl), map_map]
  rfl

theorem keptJson_eq (ms : List (JsString × JsVal)) :
    keptJson ms = keptMembers canonicalJson (· != protoKey) ms := rfl

theorem mem_keptJson {k : JsString} {j : Json} :
    (k, j) ∈ keptJson ms ↔ k ≠ protoKey ∧ ∃ v, JsVal.Defines ms k v ∧ j = canonicalJson v := by
  rw [keptJson_eq, mem_keptMembers, bne_iff_ne]

/-- **What the canonical form of an object holds**: its defined members,
except one named `__proto__`. -/
theorem mem_canonicalJson_obj (hnd : (ms.map Prod.fst).Nodup) :
    ∃ js, canonicalJson (.obj ms) = .obj js ∧ ∀ k j, (k, j) ∈ js ↔
      k ≠ protoKey ∧ ∃ v, JsVal.Defines ms k v ∧ j = canonicalJson v := by
  refine ⟨_, canonicalJson_obj hnd, fun k j => ?_⟩
  rw [(perm_ownKeys _).mem_iff, mem_insertionSort, (perm_ownKeys _).mem_iff, mem_keptJson]

theorem canonicalJson_arr (l : List JsVal) :
    canonicalJson (.arr l) = .arr (l.map canonicalJson) := by
  simp [canonicalJson, jsonbCanonical, canonicalElems_eq, toJson, toJsonElems_eq,
    Function.comp_def]

/-- **One JSON value has one canonical tree.** Member names are asked to be
well-formed because two lone surrogates have the same UTF-8 bytes and tie. -/
theorem canonicalJson_congr {v w : JsVal} (h : SameJson v w) (hv : v.wf = true) (hw : w.wf = true)
    (hkeys : v.allKeys isWellFormed = true) : canonicalJson v = canonicalJson w := by
  refine form_congr (· != protoKey) rfl (fun l l' hl => ?_)
    (fun ms ms' hms hms' hnames hperm => ?_) h hv hw hkeys
  · rw [canonicalJson_arr, canonicalJson_arr, hl]
  · obtain ⟨hnd, -⟩ := JsVal.wf_obj.mp hms
    obtain ⟨hnd', -⟩ := JsVal.wf_obj.mp hms'
    -- names that tie have the same bytes, so they are the same name
    have hties : ∀ a ∈ ownKeys (keptJson ms), ∀ b ∈ ownKeys (keptJson ms),
        jsonbKeyLe a b → jsonbKeyLe b a → a = b := by
      intro a ha b hb hab hba
      rw [(perm_ownKeys _).mem_iff] at ha hb
      obtain ⟨_, va, hva, _⟩ := mem_keptJson.mp ha
      obtain ⟨_, vb, hvb, _⟩ := mem_keptJson.mp hb
      have hkey : a.1 = b.1 := utf8_injective (JsVal.allKeys_obj.mp hnames _ _ hva).1
        (JsVal.allKeys_obj.mp hnames _ _ hvb).1 (utf8_eq_of_jsonbKeyLe hab hba)
      exact inj_on_of_nodup_map (keptJson_eq ms ▸ nodup_keptMembers hnd) ha hb hkey
    have hown : (ownKeys (keptJson ms)).Perm (ownKeys (keptJson ms')) :=
      (perm_ownKeys _).trans (hperm.trans (perm_ownKeys _).symm)
    rw [canonicalJson_obj hnd, canonicalJson_obj hnd', insertionSort_eq_of_perm hown hties]

/-! ## The hash of an event -/

/-- The core of an event. `payload` may be `undefined`. -/
structure EventHashInput where
  envelopeId : JsString
  eventType : JsString
  actorType : JsString
  actorRef : Option JsString
  payload : JsValue
  occurredAt : JsString

/-- `x ?? null` on a value. -/
def orNull : JsVal → JsVal
  | .undefined => .null
  | v => v

/-- A string, or `null`. -/
def nullable (s : Option JsString) : JsVal := s.elim .null .str

/-- The text that is hashed: the event core in a fixed member order. -/
def eventText (previousHash : Option JsString) (core : EventHashInput) : JsString :=
  stringify (.obj [
    (js "previous", nullable previousHash),
    (js "envelope_id", .str core.envelopeId),
    (js "event_type", .str core.eventType),
    (js "actor_type", .str core.actorType),
    (js "actor_ref", nullable core.actorRef),
    (js "payload", jsonbCanonical (orNull core.payload.val)),
    (js "occurred_at", .str core.occurredAt)])

/-- A digest function by its value on one text. -/
def digestAt (text digest : JsString) : JsString → JsString := fun t =>
  if t = text then digest else t

/-- A digest function by its values on several texts. -/
def digestsAt (known : List (JsString × JsString)) : JsString → JsString := fun t =>
  (known.lookup t).getD t

def computeEventHash (sha256 : JsString → JsString) (previousHash : Option JsString)
    (core : EventHashInput) : JsString :=
  sha256 (eventText previousHash core)

theorem ownKeys_of_names {α : Type} {ms : List (JsString × α)}
    (h : ∀ m ∈ ms, arrayIndex m.1 = none) : ownKeys ms = ms := by
  have hidx : ms.filter (fun m => (arrayIndex m.1).isSome) = [] := by
    simp only [filter_eq_nil_iff]
    intro m hm
    simp [h m hm]
  have hrest : ms.filter (fun m => (arrayIndex m.1).isNone) = ms := by
    simp only [filter_eq_self]
    intro m hm
    simp [h m hm]
  rw [ownKeys, hidx, hrest]
  rfl

@[simp] theorem isUndefined_nullable (s : Option JsString) : (nullable s).isUndefined = false := by
  cases s <;> simp [nullable]

@[simp] theorem isUndefined_orNull (v : JsVal) : (orNull v).isUndefined = false := by
  cases v <;> simp [orNull]

@[simp] theorem canonicalJson_orNull (v : JsVal) : canonicalJson (orNull v) = canonicalJson v := by
  cases v <;> rfl

theorem toJson_nullable_injective {s t : Option JsString}
    (h : toJson (nullable s) = toJson (nullable t)) : s = t := by
  cases s <;> cases t <;> simp_all [nullable, toJson]

theorem eventText_eq (p : Option JsString) (core : EventHashInput) :
    eventText p core = print (.obj [
      (js "previous", toJson (nullable p)),
      (js "envelope_id", .str core.envelopeId),
      (js "event_type", .str core.eventType),
      (js "actor_type", .str core.actorType),
      (js "actor_ref", toJson (nullable core.actorRef)),
      (js "payload", canonicalJson (orNull core.payload.val)),
      (js "occurred_at", .str core.occurredAt)]) := by
  unfold eventText stringify
  simp only [toJson, toJsonMembers, isUndefined_nullable, isUndefined_jsonbCanonical,
    isUndefined_orNull, JsVal.isUndefined_str, Bool.false_eq_true, if_false, canonicalJson]
  rw [ownKeys_of_names]
  -- none of the seven names is an array index
  simp only [forall_mem_cons, not_mem_nil, false_implies, implies_true, and_true]
  decide

/-- **The hashed text is injective** up to the canonical form of the payload. -/
theorem eventText_inj {p p' : Option JsString} {c c' : EventHashInput}
    (h : eventText p c = eventText p' c') :
    p = p' ∧ c.envelopeId = c'.envelopeId ∧ c.eventType = c'.eventType ∧
      c.actorType = c'.actorType ∧ c.actorRef = c'.actorRef ∧
      canonicalJson (orNull c.payload.val) = canonicalJson (orNull c'.payload.val) ∧
      c.occurredAt = c'.occurredAt := by
  rw [eventText_eq, eventText_eq] at h
  have htree := print_injective h
  simp only [Json.obj.injEq, List.cons.injEq, Prod.mk.injEq, Json.str.injEq, true_and,
    and_true] at htree
  obtain ⟨hp, he, ht, ha, hr, hpl, ho⟩ := htree
  exact ⟨toJson_nullable_injective hp, he, ht, ha, toJson_nullable_injective hr, hpl, ho⟩

theorem eventText_congr {p : Option JsString} {c c' : EventHashInput}
    (he : c.envelopeId = c'.envelopeId) (ht : c.eventType = c'.eventType)
    (ha : c.actorType = c'.actorType) (hr : c.actorRef = c'.actorRef)
    (hpl : canonicalJson (orNull c.payload.val) = canonicalJson (orNull c'.payload.val))
    (ho : c.occurredAt = c'.occurredAt) : eventText p c = eventText p c' := by
  rw [eventText_eq, eventText_eq, he, ht, ha, hr, hpl, ho]

/-! ## Verification -/

structure ChainEventRow extends EventHashInput where
  id : Uuid
  previousEventHash : Option JsString
  eventHash : JsString

structure ChainRedactionRow where
  eventId : Uuid
  originalEventHash : JsString
  verifiedBeforeRedaction : Bool

inductive ChainEventStatus where
  | verified
  | redactedAttested
  | redactedLinkOnly
  | linkOnly
  | broken
  deriving DecidableEq

inductive BreakReason where
  | link
  | redactionRecord
  deriving DecidableEq

structure ChainVerification where
  ok : Bool
  verified : Nat
  redactedAttested : Nat
  redactedLinkOnly : Nat
  linkOnly : Nat
  broken : List (Uuid × BreakReason)
  statuses : List (Uuid × ChainEventStatus)

/-- The counters before the first event. -/
def ChainVerification.start : ChainVerification :=
  { ok := true, verified := 0, redactedAttested := 0, redactedLinkOnly := 0, linkOnly := 0,
    broken := [], statuses := [] }

section Verify

variable (sha256 : JsString → JsString)

/-- `byEvent.get`: a later record of the same event replaces an earlier one. -/
def redactionOf (redactions : List ChainRedactionRow) (id : Uuid) : Option ChainRedactionRow :=
  redactions.reverse.find? (·.eventId == id)

/-- The event's own status, its link apart, and the record break it reports. -/
def rowStatus (redactions : List ChainRedactionRow) (ev : ChainEventRow) : ChainEventStatus :=
  if computeEventHash sha256 ev.previousEventHash ev.toEventHashInput = ev.eventHash then .verified
  else
    match redactionOf redactions ev.id with
    | some r =>
        if r.originalEventHash ≠ ev.eventHash then .broken
        else if r.verifiedBeforeRedaction then .redactedAttested
        else .redactedLinkOnly
    | none => .linkOnly

/-- One pass of the loop body, without `prior = ev.event_hash`. -/
def verifyRow (redactions : List ChainRedactionRow) (out : ChainVerification)
    (prior : Option JsString) (ev : ChainEventRow) : ChainVerification :=
  let linked := ev.previousEventHash == prior
  let out := if linked then out else { out with broken :=
    out.broken ++ [(ev.id, BreakReason.link)] }
  let status := rowStatus sha256 redactions ev
  let out :=
    match status with
    | .verified => { out with verified := out.verified + 1 }
    | .redactedAttested => { out with redactedAttested := out.redactedAttested + 1 }
    | .redactedLinkOnly => { out with redactedLinkOnly := out.redactedLinkOnly + 1 }
    | .linkOnly => { out with linkOnly := out.linkOnly + 1 }
    | .broken => { out with broken := out.broken ++ [(ev.id, BreakReason.redactionRecord)] }
  { out with statuses := out.statuses ++ [(ev.id, if linked then status else .broken)] }

def verifyRows (redactions : List ChainRedactionRow) :
    ChainVerification → Option JsString → List ChainEventRow → ChainVerification
  | out, _, [] => out
  | out, prior, ev :: rest =>
      verifyRows redactions (verifyRow sha256 redactions out prior ev) (some ev.eventHash) rest

/-- `events` in chain order. -/
def verifyEventChain (events : List ChainEventRow) (redactions : List ChainRedactionRow) :
    ChainVerification :=
  let out := verifyRows sha256 redactions .start none events
  { out with ok := out.broken.isEmpty }

/-- The verifier reports `ok`, and every event as verified. -/
def AllVerified (events : List ChainEventRow) (redactions : List ChainRedactionRow) : Prop :=
  (verifyEventChain sha256 events redactions).ok = true ∧
    ∀ p ∈ (verifyEventChain sha256 events redactions).statuses, p.2 = .verified

/-- The event's hash recomputes from its row. -/
def Recomputes (ev : ChainEventRow) : Prop :=
  computeEventHash sha256 ev.previousEventHash ev.toEventHashInput = ev.eventHash

theorem rowStatus_eq_verified (redactions : List ChainRedactionRow) {ev : ChainEventRow} :
    rowStatus sha256 redactions ev = .verified ↔ Recomputes sha256 ev := by
  unfold rowStatus Recomputes
  split
  · simpa using ‹_›
  · constructor
    · intro h
      repeat' split at h
      all_goals cases h
    · intro h
      contradiction

theorem verifyRows_statuses (redactions : List ChainRedactionRow) (events : List ChainEventRow)
    (out : ChainVerification) (prior : Option JsString) :
    (∀ p ∈ (verifyRows sha256 redactions out prior events).statuses, p.2 = .verified) ↔
      (∀ p ∈ out.statuses, p.2 = .verified) ∧
        Linked ChainEventRow.previousEventHash ChainEventRow.eventHash prior events ∧
        ∀ ev ∈ events, Recomputes sha256 ev := by
  induction events generalizing out prior with
  | nil => simp [verifyRows, Linked]
  | cons ev rest ih =>
    have hstat : (verifyRow sha256 redactions out prior ev).statuses = out.statuses ++
        [(ev.id, if ev.previousEventHash == prior then rowStatus sha256 redactions ev
          else .broken)] := by
      unfold verifyRow
      dsimp only
      split <;> split <;> simp_all
    have hrow : (if ev.previousEventHash == prior then rowStatus sha256 redactions ev
        else .broken) = .verified ↔ ev.previousEventHash = prior ∧ Recomputes sha256 ev := by
      rw [← rowStatus_eq_verified sha256 redactions]
      by_cases hl : ev.previousEventHash = prior <;> simp [hl]
    simp only [verifyRows, ih, hstat, forall_mem_append, forall_mem_singleton, hrow,
      Linked, forall_mem_cons]
    tauto

theorem verifyRows_broken {redactions : List ChainRedactionRow} {events : List ChainEventRow}
    {out : ChainVerification} {prior : Option JsString} (hout : out.broken = [])
    (hlink : Linked ChainEventRow.previousEventHash ChainEventRow.eventHash prior events)
    (hrec : ∀ ev ∈ events, Recomputes sha256 ev) :
    (verifyRows sha256 redactions out prior events).broken = [] := by
  induction events generalizing out prior with
  | nil => exact hout
  | cons ev rest ih =>
    obtain ⟨hprev, hrest⟩ := hlink
    have hv : rowStatus sha256 redactions ev = .verified :=
      (rowStatus_eq_verified sha256 redactions).mpr (hrec ev (by simp))
    refine ih ?_ hrest fun e he => hrec e (by simp [he])
    simp [verifyRow, hprev, hv, hout]

/-- **What the verifier accepts**: the chain links from `null`, and every
hash recomputes. -/
theorem allVerified_iff {events : List ChainEventRow} {redactions : List ChainRedactionRow} :
    AllVerified sha256 events redactions ↔
      Linked ChainEventRow.previousEventHash ChainEventRow.eventHash none events ∧
        ∀ ev ∈ events, Recomputes sha256 ev := by
  have hstat := verifyRows_statuses sha256 redactions events .start none
  simp only [ChainVerification.start, not_mem_nil, false_implies, implies_true,
    true_and] at hstat
  constructor
  · rintro ⟨_, hall⟩
    exact hstat.mp hall
  · rintro ⟨hlink, hrec⟩
    refine ⟨?_, hstat.mpr ⟨hlink, hrec⟩⟩
    have hnone : ChainVerification.start.broken = [] := rfl
    simp [verifyEventChain, verifyRows_broken sha256 hnone hlink hrec]

end Verify

end AramoPlatform.Sign
