import AramoPlatform.Sign.HashChain

/-!
# What the terminal hash commits to

Two verified chains with one terminal hash hold the same events, up to what
`jsonbCanonical` forgets. It forgets the order of object members and
`undefined`, which no JSON value has, and it forgets every member named
`__proto__`: on payloads without such a member the canonical form determines
the JSON value (`sameJson_of_canonicalJson`), and a payload with one has the
same canonical form as the payload without it (`canonicalJson_stripProto`).
-/

namespace AramoPlatform.Sign

open Js Lib List

/-! ## Payloads without a `__proto__` member -/

/-- No object below has a defined member named `__proto__`. -/
def protoFree (v : JsVal) : Bool := v.allKeys (· != protoKey)

theorem protoFree_arr {l : List JsVal} :
    protoFree (.arr l) = true ↔ ∀ v ∈ l, protoFree v = true :=
  JsVal.allKeys_arr

theorem protoFree_obj {ms : List (JsString × JsVal)} :
    protoFree (.obj ms) = true ↔
      ∀ k v, JsVal.Defines ms k v → k ≠ protoKey ∧ protoFree v = true := by
  simp only [protoFree, JsVal.allKeys_obj, bne_iff_ne]

theorem treeForm_canonicalJson : TreeForm canonicalJson (· != protoKey) where
  undefined := rfl
  null := rfl
  bool _ := rfl
  num _ := rfl
  str _ := rfl
  arr := canonicalJson_arr
  obj ms hnd := by
    obtain ⟨js, hjs, hmem⟩ := mem_canonicalJson_obj hnd
    exact ⟨js, hjs, fun k j => by rw [hmem, bne_iff_ne]⟩

/-- **The canonical form determines the JSON value** where no member is named
`__proto__`. -/
theorem sameJson_of_canonicalJson {v w : JsVal} (hv : v.wf = true) (hw : w.wf = true)
    (pv : protoFree v = true) (pw : protoFree w = true)
    (h : canonicalJson v = canonicalJson w) : SameJson v w :=
  treeForm_canonicalJson.same hv hw pv pw h

/-- A JSON value without `__proto__` members is not the same as one with. -/
theorem protoFree_of_sameJson {v w : JsVal} (h : SameJson v w) (hw : protoFree w = true) :
    protoFree v = true := by
  induction h with
  | nullish hv _ => rcases hv with rfl | rfl <;> rfl
  | bool _ | num _ | str _ => rfl
  | arr hlen _ ih =>
    refine protoFree_arr.mpr fun v hv => ?_
    obtain ⟨i, hi, hget⟩ := getElem_of_mem hv
    have hi' := hlen ▸ hi
    exact ih i v _ (hget ▸ getElem?_eq_getElem hi) (getElem?_eq_getElem hi')
      (protoFree_arr.mp hw _ (getElem_mem hi'))
  | obj hkeys _ ih =>
    refine protoFree_obj.mpr fun k v hv => ?_
    obtain ⟨w, hkw⟩ := (hkeys k).mp ⟨v, hv⟩
    obtain ⟨hk, hpw⟩ := protoFree_obj.mp hw k w hkw
    exact ⟨hk, ih k v w hv hkw hpw⟩

/-! ## A payload with the member, and without it -/

mutual
/-- The value with every member named `__proto__` left out. -/
def stripProto : JsVal → JsVal
  | .arr elems => .arr (stripElems elems)
  | .obj members => .obj (stripMembers members)
  | v => v
termination_by structural v => v

def stripElems : List JsVal → List JsVal
  | [] => []
  | v :: rest => stripProto v :: stripElems rest
termination_by structural l => l

def stripMembers : List (JsString × JsVal) → List (JsString × JsVal)
  | [] => []
  | (k, v) :: rest =>
      if k = protoKey then stripMembers rest else (k, stripProto v) :: stripMembers rest
termination_by structural l => l
end

theorem stripElems_eq (l : List JsVal) : stripElems l = l.map stripProto := by
  induction l with
  | nil => simp [stripElems]
  | cons v rest ih => simp [stripElems, ih]

theorem stripMembers_eq (ms : List (JsString × JsVal)) :
    stripMembers ms = (ms.filter fun m => m.1 != protoKey).map fun m => (m.1, stripProto m.2) := by
  induction ms with
  | nil => simp [stripMembers]
  | cons m rest ih => by_cases hm : m.1 = protoKey <;> simp [stripMembers, hm, ih]

theorem map_fst_stripMembers (ms : List (JsString × JsVal)) :
    (stripMembers ms).map Prod.fst = (ms.filter fun m => m.1 != protoKey).map Prod.fst := by
  simp [stripMembers_eq, Function.comp_def]

@[simp] theorem isUndefined_stripProto (v : JsVal) :
    (stripProto v).isUndefined = v.isUndefined := by
  cases v <;> simp [stripProto, JsVal.isUndefined]

theorem wf_stripProto {v : JsVal} (h : v.wf = true) : (stripProto v).wf = true := by
  induction v with
  | arr l ih =>
    simp only [stripProto, stripElems_eq, JsVal.wf_arr, forall_mem_map] at h ⊢
    exact fun v hv => ih v hv (h v hv)
  | obj ms ih =>
    rw [JsVal.wf_obj] at h
    rw [stripProto, JsVal.wf_obj, map_fst_stripMembers]
    refine ⟨h.1.sublist (filter_sublist.map Prod.fst), ?_⟩
    simp only [stripMembers_eq, forall_mem_map, mem_filter]
    exact fun m hm => ih m hm.1 (h.2 m hm.1)
  | _ => rfl

theorem protoFree_stripProto (v : JsVal) : protoFree (stripProto v) = true := by
  induction v with
  | arr l ih =>
    simp only [stripProto, stripElems_eq, protoFree_arr, forall_mem_map]
    exact ih
  | obj ms ih =>
    rw [stripProto, protoFree_obj]
    rintro k w ⟨hmem, _⟩
    simp only [stripMembers_eq, mem_map, mem_filter, bne_iff_ne, Prod.mk.injEq] at hmem
    obtain ⟨m, ⟨hm, hk⟩, rfl, rfl⟩ := hmem
    exact ⟨hk, ih m hm⟩
  | _ => rfl

/-- **The member is lost**: leaving it out does not change the canonical form. -/
theorem canonicalJson_stripProto {v : JsVal} (h : v.wf = true) :
    canonicalJson (stripProto v) = canonicalJson v := by
  induction v with
  | arr l ih =>
    rw [stripProto, stripElems_eq, canonicalJson_arr, canonicalJson_arr, map_map]
    congr 1
    exact map_congr_left fun v hv => ih v hv (JsVal.wf_arr.mp h v hv)
  | obj ms ih =>
    obtain ⟨hnd, hwf⟩ := JsVal.wf_obj.mp h
    have hnd' : ((stripMembers ms).map Prod.fst).Nodup := by
      rw [map_fst_stripMembers]
      exact hnd.sublist (filter_sublist.map Prod.fst)
    have hkept : keptJson (stripMembers ms) = keptJson ms := by
      have hfilter : (stripMembers ms).filter kept =
          (ms.filter kept).map fun m => (m.1, stripProto m.2) := by
        rw [stripMembers_eq, filter_map, filter_filter]
        congr 2
        funext m
        simp [kept]
      simp only [keptJson, hfilter, map_map]
      refine map_congr_left fun m hm => ?_
      have hmem := (mem_filter.mp hm).1
      simp [ih m hmem (hwf m hmem)]
    rw [stripProto, canonicalJson_obj hnd', canonicalJson_obj hnd, hkept]
  | _ => rfl

/-! ## The whole history -/

/-- Agreement on everything an event says. -/
structure SameEvent (e e' : ChainEventRow) : Prop where
  envelopeId : e.envelopeId = e'.envelopeId
  eventType : e.eventType = e'.eventType
  actorType : e.actorType = e'.actorType
  actorRef : e.actorRef = e'.actorRef
  occurredAt : e.occurredAt = e'.occurredAt
  payload : SameJson e.payload.val e'.payload.val

/-- The texts that were hashed. -/
def preimages (events : List ChainEventRow) : Set JsString :=
  fun t => ∃ e ∈ events, t = eventText e.previousEventHash e.toEventHashInput

def ProtoFree (events : List ChainEventRow) : Prop :=
  ∀ e ∈ events, protoFree e.payload.val = true

/-- Same length, and event by event the same content. -/
def SameHistory (l l' : List ChainEventRow) : Prop :=
  l.length = l'.length ∧ List.Forall₂ SameEvent l l'

section Commitment

variable (sha256 : JsString → JsString)

/-- The terminal hash of `l` commits to its history: no other verified list,
of payloads without a `__proto__` member, has the same terminal hash and
another history, as long as no two of the texts hashed collide. -/
def TerminalHashCommits (l : List ChainEventRow) : Prop :=
  ∀ l' redactions', ProtoFree l' → AllVerified sha256 l' redactions' →
    Set.InjOn sha256 (preimages l ∪ preimages l') →
    terminal ChainEventRow.eventHash l = terminal ChainEventRow.eventHash l' → SameHistory l l'

theorem sameEvent_of_eventHash_eq {e e' : ChainEventRow} (hr : Recomputes sha256 e)
    (hr' : Recomputes sha256 e') (hp : protoFree e.payload.val = true)
    (hp' : protoFree e'.payload.val = true)
    (hinj : sha256 (eventText e.previousEventHash e.toEventHashInput) =
        sha256 (eventText e'.previousEventHash e'.toEventHashInput) →
      eventText e.previousEventHash e.toEventHashInput =
        eventText e'.previousEventHash e'.toEventHashInput)
    (hhash : e.eventHash = e'.eventHash) :
    e.previousEventHash = e'.previousEventHash ∧ SameEvent e e' := by
  have htext : eventText e.previousEventHash e.toEventHashInput =
      eventText e'.previousEventHash e'.toEventHashInput := by
    refine hinj ?_
    rw [Recomputes, computeEventHash] at hr hr'
    rw [hr, hr', hhash]
  obtain ⟨hprev, he, ht, ha, href, hpl, ho⟩ := eventText_inj htext
  simp only [canonicalJson_orNull] at hpl
  exact ⟨hprev, he, ht, ha, href, ho,
    sameJson_of_canonicalJson e.payload.wf e'.payload.wf hp hp' hpl⟩

theorem sameHistory_of_protoFree {l l' : List ChainEventRow} {rs rs' : List ChainRedactionRow}
    (hp : ProtoFree l) (hp' : ProtoFree l') (hv : AllVerified sha256 l rs)
    (hv' : AllVerified sha256 l' rs') (hinj : Set.InjOn sha256 (preimages l ∪ preimages l'))
    (hterm : terminal ChainEventRow.eventHash l = terminal ChainEventRow.eventHash l') :
    SameHistory l l' := by
  obtain ⟨hlink, hrec⟩ := (allVerified_iff sha256).mp hv
  obtain ⟨hlink', hrec'⟩ := (allVerified_iff sha256).mp hv'
  have hsame : List.Forall₂ SameEvent l l' := by
    refine same_of_terminal_eq _ _ (fun e he e' he' hhash => ?_) hlink hlink' hterm
    exact sameEvent_of_eventHash_eq sha256 (hrec e he) (hrec' e' he') (hp e he) (hp' e' he')
      (hinj (.inl ⟨e, he, rfl⟩) (.inr ⟨e', he', rfl⟩)) hhash
  exact ⟨hsame.length_eq, hsame⟩

/-- The event with its payload stripped. -/
def stripEvent (e : ChainEventRow) : ChainEventRow :=
  { e with payload := ⟨stripProto e.payload.val, wf_stripProto e.payload.wf⟩ }

@[simp] theorem eventText_stripEvent (p : Option JsString) (e : ChainEventRow) :
    eventText p (stripEvent e).toEventHashInput = eventText p e.toEventHashInput := by
  refine eventText_congr rfl rfl rfl rfl ?_ rfl
  rw [canonicalJson_orNull, canonicalJson_orNull]
  exact canonicalJson_stripProto e.payload.wf

theorem preimages_strip (l : List ChainEventRow) : preimages (l.map stripEvent) = preimages l := by
  ext t
  constructor
  · rintro ⟨e, he, rfl⟩
    obtain ⟨a, ha, rfl⟩ := mem_map.mp he
    exact ⟨a, ha, eventText_stripEvent _ a⟩
  · rintro ⟨e, he, rfl⟩
    exact ⟨stripEvent e, mem_map_of_mem he, (eventText_stripEvent _ e).symm⟩

theorem linked_strip (prior : Option JsString) (l : List ChainEventRow) :
    Linked ChainEventRow.previousEventHash ChainEventRow.eventHash prior (l.map stripEvent) ↔
      Linked ChainEventRow.previousEventHash ChainEventRow.eventHash prior l := by
  induction l generalizing prior with
  | nil => rfl
  | cons e rest ih => simp only [map_cons, Linked, ih]; rfl

theorem allVerified_strip {l : List ChainEventRow} {rs : List ChainRedactionRow}
    (hv : AllVerified sha256 l rs) : AllVerified sha256 (l.map stripEvent) rs := by
  obtain ⟨hlink, hrec⟩ := (allVerified_iff sha256).mp hv
  refine (allVerified_iff sha256).mpr ⟨(linked_strip none l).mpr hlink, ?_⟩
  simp only [forall_mem_map]
  intro e he
  rw [Recomputes, computeEventHash, eventText_stripEvent]
  exact hrec e he

/-- **The terminal hash commits to the whole history exactly when no payload
of it has a `__proto__` member.** -/
theorem terminalHashCommits_iff_protoFree (l : List ChainEventRow) (rs : List ChainRedactionRow)
    (hv : AllVerified sha256 l rs) (hinj : Set.InjOn sha256 (preimages l)) :
    TerminalHashCommits sha256 l ↔ ProtoFree l := by
  constructor
  · -- the stripped history has the same terminal hash, so it must be the same one
    intro hcommits
    have hfree : ProtoFree (l.map stripEvent) := by
      simp only [ProtoFree, forall_mem_map]
      exact fun e _ => protoFree_stripProto e.payload.val
    have hterm : terminal ChainEventRow.eventHash l =
        terminal ChainEventRow.eventHash (l.map stripEvent) := by
      simp only [terminal, getLast?_map, Option.map_map]
      rfl
    obtain ⟨_, hsame⟩ := hcommits _ rs hfree (allVerified_strip sha256 hv)
      (by rwa [preimages_strip, Set.union_self]) hterm
    intro e he
    obtain ⟨i, hi, rfl⟩ := getElem_of_mem he
    have hpair := hsame.get (i := i) hi (by simpa using hi)
    have hstrip : protoFree ((l.map stripEvent).get ⟨i, by simpa using hi⟩).payload.val = true :=
      hfree _ (get_mem _ _)
    exact protoFree_of_sameJson hpair.payload hstrip
  · intro hp l' rs' hp' hv' hinj' hterm
    exact sameHistory_of_protoFree sha256 hp hp' hv hv' hinj' hterm

end Commitment

/-- A sent event of the given payload. -/
def sentCore (payload : JsValue) : EventHashInput :=
  { envelopeId := js "env-1", eventType := js "ENVELOPE_SENT", actorType := js "SERVICE",
    actorRef := none, payload := payload, occurredAt := js "2026-01-05T09:00:00.000Z" }

/-- The first row of a ledger. -/
def firstRow (core : EventHashInput) (eventHash : JsString) : ChainEventRow :=
  { core with id := 1, previousEventHash := none, eventHash := eventHash }

theorem allVerified_firstRow (core : EventHashInput) (digest : JsString) :
    AllVerified (digestAt (eventText none core) digest) [firstRow core digest] [] := by
  refine (allVerified_iff _).mpr ⟨⟨rfl, trivial⟩, ?_⟩
  simp only [forall_mem_singleton, Recomputes, computeEventHash, firstRow, digestAt, if_true]

/-- The envelope is sent with a message. -/
def messageCore : EventHashInput :=
  sentCore ⟨.obj [(js "sender_message", .str (js "Please sign")),
    (js "sender_message_source", .str (js "SENDER_SUPPLIED"))], by decide⟩

/-- The link of a signer is exchanged, five minutes later. -/
def exchangedCore : EventHashInput :=
  { envelopeId := js "env-1", eventType := js "SESSION_EXCHANGED", actorType := js "SIGNER",
    actorRef := some (js "signer-1"), payload := ⟨.null, by decide⟩,
    occurredAt := js "2026-01-05T09:05:00.000Z" }

def messageHash : JsString := js "In7LxrzQ-A-DHcGaf6AxC1e4p9vCe_g9deDgS7DqMuk"

def exchangedRow : ChainEventRow :=
  { exchangedCore with
    id := 2, previousEventHash := some messageHash
    eventHash := js "IalcUqHWLm56dYS5HuAb33TzXlLWpRmx6uLebT_Tz1w" }

def twoEventSha256 : JsString → JsString :=
  digestsAt [(eventText none messageCore, messageHash),
    (eventText (some messageHash) exchangedCore, exchangedRow.eventHash)]

/-- The commitment on a ledger of two events with ordinary payloads. -/
theorem terminalHashCommits_exchanged :
    TerminalHashCommits twoEventSha256 [firstRow messageCore messageHash, exchangedRow] := by
  have hv : AllVerified twoEventSha256 [firstRow messageCore messageHash, exchangedRow] [] := by
    refine (allVerified_iff _).mpr ⟨⟨rfl, rfl, trivial⟩, ?_⟩
    unfold Recomputes
    decide +kernel
  refine (terminalHashCommits_iff_protoFree _ _ [] hv ?_).mpr ?_
  · -- the two texts have different digests
    rintro a ⟨e, he, rfl⟩ b ⟨e', he', rfl⟩ hsame
    simp only [mem_cons, not_mem_nil, or_false] at he he'
    rcases he with rfl | rfl <;> rcases he' with rfl | rfl
    · rfl
    · exact absurd hsame (by decide +kernel)
    · exact absurd hsame (by decide +kernel)
    · rfl
  · simp only [ProtoFree, forall_mem_cons]
    exact ⟨rfl, rfl, by simp⟩

/-- A recorded reason under the name `__proto__` and no payload member at all
give one terminal hash. -/
theorem protoMember_not_committed :
    ¬ ∀ (sha256 : JsString → JsString) (l l' : List ChainEventRow)
        (rs rs' : List ChainRedactionRow), AllVerified sha256 l rs → AllVerified sha256 l' rs' →
        Set.InjOn sha256 (preimages l ∪ preimages l') →
        terminal ChainEventRow.eventHash l = terminal ChainEventRow.eventHash l' →
        SameHistory l l' := by
  intro hclaim
  let digest := js "I4VbvL0_Oh2qEs4AX_TKdjTSwvoOtPvKO5kcncck84I"
  let core := sentCore ⟨.obj [(protoKey, .obj [(js "reason", .str (js "fraud"))])], by decide⟩
  let core' := sentCore ⟨.obj [], by decide⟩
  have htext : eventText none core' = eventText none core :=
    eventText_congr rfl rfl rfl rfl rfl rfl
  have hv := allVerified_firstRow core digest
  have hv' := allVerified_firstRow core' digest
  rw [htext] at hv'
  have hinj : Set.InjOn (digestAt (eventText none core) digest)
      (preimages [firstRow core digest] ∪ preimages [firstRow core' digest]) := by
    have hone : ∀ t ∈ preimages [firstRow core digest] ∪ preimages [firstRow core' digest],
        t = eventText none core := by
      rintro t (⟨e, he, rfl⟩ | ⟨e, he, rfl⟩)
      · rw [mem_singleton.mp he]
        rfl
      · rw [mem_singleton.mp he]
        exact htext
    intro a ha b hb _
    rw [hone a ha, hone b hb]
  obtain ⟨_, hsame⟩ := hclaim _ _ _ _ _ hv hv' hinj rfl
  cases hsame with
  | cons hev _ =>
    cases hev.payload with
    | nullish hnull _ => simp [firstRow, core, sentCore] at hnull
    | obj hkeys _ =>
      obtain ⟨v, hv, _⟩ := (hkeys protoKey).mp ⟨_, mem_singleton_self _, nofun⟩
      simp at hv

end AramoPlatform.Sign
