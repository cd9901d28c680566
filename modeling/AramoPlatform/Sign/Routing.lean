import AramoPlatform.Sign.DraftRecipients
import AramoPlatform.Sign.EffectFacts

/-!
# Whose turn it is

The turn rule stands in several places: over the rows in memory, as the
check of the engine before every act of a signer, in the reminders and in
the invitations. When every witness comes after the signer it attests for,
and attests in the end for someone who signs, they all name one recipient,
and someone can always act.

The send checks the first half of this only. A witness of a recipient who
receives a copy passes, and then waits for ever.
-/

namespace AramoPlatform.Sign

open Js Lib List

/-- Whether `signerId` may act now. -/
def mayActNow (routingMode : RoutingMode) (rows : List SignerRow) (signerId : Uuid) : Bool :=
  match rows.find? (·.id == signerId) with
  | none => false
  | some row =>
    isSigningRecipient row && witnessReady rows row &&
      (routingMode != .sequential || (currentTurnOf rows).map (·.id) == some signerId)

/-- A recipient who signs, or a witness of one, over any number of witnesses. -/
inductive Grounded (rows : List SignerRow) : SignerRow → Prop
  | signs {r : SignerRow} (signing : isSigningRecipient r = true) (own : isWitness r = false) :
      Grounded rows r
  | attests {r p : SignerRow} (witness : isWitness r = true) (mem : p ∈ rows)
      (names : r.witnessForSignerId = some p.id) (principal : Grounded rows p) : Grounded rows r

def WitnessesGrounded (rows : List SignerRow) : Prop :=
  ∀ r ∈ rows, isWitness r = true → Grounded rows r

/-- Recipients in a good order: every witness has its signer, before it when
they sign in order. -/
structure Routed (routingMode : RoutingMode) (rows : List SignerRow) : Prop where
  ids : (rows.map (·.id)).Nodup
  orders : (rows.map (·.signingOrder)).Nodup
  witness : ∀ r ∈ rows, isWitness r = true → ∃ p ∈ rows, r.witnessForSignerId = some p.id ∧
    (routingMode = .sequential → p.signingOrder < r.signingOrder)
  grounded : WitnessesGrounded rows

/-- Somebody who signs has not signed yet. -/
def SomeoneOpen (rows : List SignerRow) : Prop :=
  ∃ r ∈ rows, isSigningRecipient r = true ∧ r.status ≠ .signed

variable {routingMode : RoutingMode} {rows old new : List SignerRow} {r p : SignerRow}

theorem Grounded.signing (h : Grounded rows r) : isSigningRecipient r = true := by
  cases h with
  | signs signing _ => exact signing
  | attests witness _ _ _ => simp_all [isWitness, isSigningRecipient]

/-! ## Readiness -/

theorem witnessProblems_eq_nil (hw : isWitness r = true)
    (h : witnessProblems routingMode rows r = []) :
    ∃ p ∈ rows, r.witnessForSignerId = some p.id ∧
      (routingMode = .sequential → p.signingOrder < r.signingOrder) := by
  simp only [witnessProblems, hw, Bool.not_true, Bool.false_eq_true, if_false] at h
  split at h
  · cases h
  next p hfind =>
    refine ⟨p, mem_of_find?_eq_some hfind, by simpa using find?_some hfind, ?_⟩
    intro hseq
    split at h
    · cases h
    next horder => exact Nat.lt_of_not_le fun hle => horder ⟨hseq, hle⟩

theorem routed_of_ready {s : State} (hids : (s.signers.map (·.id)).Nodup)
    (horders : (s.signers.map (·.signingOrder)).Nodup) (hgrounded : WitnessesGrounded s.signers)
    (hready : readiness s = []) : Routed s.envelope.routingMode s.signers := by
  refine ⟨hids, horders, fun r hr hw => ?_, hgrounded⟩
  simp only [readiness, append_eq_nil_iff, flatMap_eq_nil_iff,
    mem_insertionSort] at hready
  obtain ⟨p, hp, hnames, horder⟩ := witnessProblems_eq_nil hw (hready.1.1.1 r hr)
  exact ⟨p, (mem_insertionSort orderLe).mp hp, hnames, horder⟩

/-! ## Witnesses -/

theorem isWitness_of_slot (h : SlotKept r p) : isWitness p = isWitness r := by
  simp only [isWitness, h.recipientKind]

theorem Grounded.of_slots (hslots : List.Forall₂ SlotKept old new) {y : SignerRow}
    (h : Grounded old y) : ∀ x, SlotKept y x → Grounded new x := by
  induction h with
  | signs signing own =>
    intro x hx
    refine .signs ?_ ((isWitness_of_slot hx).trans own)
    simpa only [isSigningRecipient, hx.recipientKind] using signing
  | attests witness mem names _ ih =>
    intro x hx
    obtain ⟨p', hp', hkept⟩ := exists_new_of_mem hslots mem
    refine .attests ((isWitness_of_slot hx).trans witness) hp' ?_ (ih p' hkept)
    rw [hx.witnessForSignerId, names, hkept.id]

theorem Routed.of_slots (h : Routed routingMode old) (hslots : List.Forall₂ SlotKept old new) :
    Routed routingMode new where
  ids := by
    rw [map_eq_of_forall₂ hslots fun _ _ hs => hs.id]
    exact h.ids
  orders := by
    rw [map_eq_of_forall₂ hslots fun _ _ hs => hs.signingOrder]
    exact h.orders
  witness := by
    intro x hx hw
    obtain ⟨y, hy, hkept⟩ := exists_old_of_mem hslots hx
    obtain ⟨p, hp, hnames, horder⟩ := h.witness y hy ((isWitness_of_slot hkept).symm.trans hw)
    obtain ⟨p', hp', hkept'⟩ := exists_new_of_mem hslots hp
    refine ⟨p', hp', by rw [hkept.witnessForSignerId, hnames, hkept'.id], fun hseq => ?_⟩
    rw [hkept.signingOrder, hkept'.signingOrder]
    exact horder hseq
  grounded := by
    intro x hx hw
    obtain ⟨y, hy, hkept⟩ := exists_old_of_mem hslots hx
    exact (h.grounded y hy ((isWitness_of_slot hkept).symm.trans hw)).of_slots hslots x hkept

theorem witnessReady_iff (hids : (rows.map (·.id)).Nodup) (hw : isWitness r = true) (hp : p ∈ rows)
    (hnames : r.witnessForSignerId = some p.id) :
    witnessReady rows r = true ↔ p.status = .signed := by
  have hfind : rows.find? (fun x => r.witnessForSignerId == some x.id) = some p := by
    have hkey : (fun x : SignerRow => r.witnessForSignerId == some x.id) = (·.id == p.id) := by
      funext x
      rw [hnames, Bool.eq_iff_iff, beq_iff_eq, beq_iff_eq, Option.some.injEq, eq_comm]
    rw [hkey]
    exact find?_key_eq_some hids hp
  simp [witnessReady, hw, hfind]

theorem witnessReady_of_not_witness (hw : isWitness r = false) : witnessReady rows r = true := by
  simp [witnessReady, hw]

/-! ## The turn -/

theorem currentTurnOf_isSome (h : SomeoneOpen rows) : ∃ r, currentTurnOf rows = some r := by
  obtain ⟨x, hx, hsigning, hstatus⟩ := h
  have hmem : x ∈ ((signingRecipients rows).filter
    (·.status != .signed)).insertionSort orderLe := by
    simp only [mem_insertionSort, signingRecipients, mem_filter, bne_iff_ne]
    exact ⟨⟨hx, hsigning⟩, hstatus⟩
  unfold currentTurnOf
  cases hlist : ((signingRecipients rows).filter (·.status != .signed)).insertionSort orderLe with
  | nil => simp [hlist] at hmem
  | cons r rest => exact ⟨r, rfl⟩

theorem currentTurnOf_le (hturn : currentTurnOf rows = some r) {x : SignerRow} (hx : x ∈ rows)
    (hsigning : isSigningRecipient x = true) (hstatus : x.status ≠ .signed) :
    r.signingOrder ≤ x.signingOrder := by
  have hmem : x ∈ ((signingRecipients rows).filter
    (·.status != .signed)).insertionSort orderLe := by
    simp only [mem_insertionSort, signingRecipients, mem_filter, bne_iff_ne]
    exact ⟨⟨hx, hsigning⟩, hstatus⟩
  have hsorted := pairwise_insertionSort orderLe
    ((signingRecipients rows).filter (·.status != .signed))
  unfold currentTurnOf at hturn
  cases hlist : ((signingRecipients rows).filter (·.status != .signed)).insertionSort orderLe with
  | nil => simp [hlist] at hmem
  | cons first rest =>
    rw [hlist] at hturn hmem hsorted
    obtain rfl : first = r := by simpa using hturn
    rcases mem_cons.mp hmem with rfl | hrest
    · exact Nat.le_refl _
    · exact (pairwise_cons.mp hsorted).1 x hrest

/-- In order, the recipient in turn is ready: the signer a witness attests for
has a lower order, and so has signed. -/
theorem Routed.turn_ready (h : Routed .sequential rows) (hturn : currentTurnOf rows = some r) :
    witnessReady rows r = true := by
  obtain ⟨hr, -, -⟩ := currentTurnOf_eq_some hturn
  by_cases hw : isWitness r = true
  · obtain ⟨p, hp, hnames, horder⟩ := h.witness r hr hw
    refine (witnessReady_iff h.ids hw hp hnames).mpr ?_
    by_contra hopen
    have hsigning : isSigningRecipient p = true := by
      cases h.grounded r hr hw with
      | signs _ own => simp [hw] at own
      | attests _ mem names principal =>
        obtain rfl := inj_on_of_nodup_map h.ids mem hp
          (Option.some.inj (names.symm.trans hnames))
        exact principal.signing
    have hle := currentTurnOf_le hturn hp hsigning hopen
    have hlt := horder rfl
    omega
  · exact witnessReady_of_not_witness (by simpa using hw)

theorem mayActNow_eq (hids : (rows.map (·.id)).Nodup) (hr : r ∈ rows) :
    mayActNow routingMode rows r.id = (isSigningRecipient r && witnessReady rows r &&
      (routingMode != .sequential || (currentTurnOf rows).map (·.id) == some r.id)) := by
  unfold mayActNow
  rw [find?_key_eq_some hids hr]

/-- **In order exactly one recipient may act**, the one in turn. -/
theorem Routed.mayActNow_iff (h : Routed .sequential rows) (hturn : currentTurnOf rows = some r)
    (id : Uuid) : mayActNow .sequential rows id = true ↔ id = r.id := by
  obtain ⟨hr, hsigning, -⟩ := currentTurnOf_eq_some hturn
  constructor
  · intro hmay
    unfold mayActNow at hmay
    split at hmay
    · cases hmay
    · simp only [hturn, Bool.and_eq_true, Option.map_some, bne_self_eq_false, Bool.false_or,
        beq_iff_eq, Option.some.injEq] at hmay
      exact hmay.2.symm
  · rintro rfl
    rw [mayActNow_eq h.ids hr, hsigning, h.turn_ready hturn, hturn]
    simp

/-- **Without an order somebody may act**: follow a witness to its signer until
one of them is ready. -/
theorem Grounded.someone_ready (hids : (rows.map (·.id)).Nodup)
    (h : Grounded rows r) (hr : r ∈ rows) (hopen : r.status ≠ .signed) :
    ∃ x ∈ rows, x.status ≠ .signed ∧ mayActNow .parallel rows x.id = true := by
  induction h with
  | @signs r signing own =>
    refine ⟨r, hr, hopen, ?_⟩
    rw [mayActNow_eq hids hr, signing, witnessReady_of_not_witness own]
    rfl
  | @attests r p witness mem names _ ih =>
    by_cases hsigned : p.status = .signed
    · refine ⟨r, hr, hopen, ?_⟩
      have hsigning : isSigningRecipient r = true := by simp_all [isWitness, isSigningRecipient]
      rw [mayActNow_eq hids hr, hsigning, (witnessReady_iff hids witness mem names).mpr hsigned]
      rfl
    · exact ih mem hsigned

theorem Routed.someone_mayActNow (h : Routed routingMode rows) (hopen : SomeoneOpen rows) :
    ∃ x ∈ rows, x.status ≠ .signed ∧ mayActNow .parallel rows x.id = true := by
  obtain ⟨r, hr, hsigning, hstatus⟩ := hopen
  have hgrounded : Grounded rows r := by
    by_cases hw : isWitness r = true
    · exact h.grounded r hr hw
    · exact .signs hsigning (by simpa using hw)
  exact hgrounded.someone_ready h.ids hr hstatus

end AramoPlatform.Sign
