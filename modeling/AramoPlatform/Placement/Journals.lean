import AramoPlatform.Placement.OneLive
import AramoPlatform.Placement.Persistence

/-!
# Lifecycle journals

Placements, permanent placements and proposals append an event and an outbox
row to each change of state. The source that they record was read before the
transaction; the triggers look at the state that the row has by then. While the
two agree, the events of a row lead from its first state to the one it is in.
-/

namespace AramoPlatform.Placement

open Lib PlacementTx List

/-! ## The three journals -/

/-- The edges of the registry; a conversion opens its target as started. -/
def placementLegal : Option PlacementState → PlacementState → Prop
  | none, target => target = .started
  | some source, target => canTransition source target = true

def permanentLegal : Option PermanentState → PermanentState → Prop
  | none, target => target = .guaranteeActive
  | some source, target => canTransitionPermanentPlacement source target = true

def proposalLegal : Option ProposalState → ProposalState → Prop
  | none, target => target = .draft
  | some source, target => isLegalCommercialProposalTransition source target = true

/-- A placement under an offer has no event that opens it: it starts out as
`PRE_START`. -/
def placementChronicle : Chronicle PlacementProcess PlacementState where
  id := (·.id)
  state := (·.state)
  start p := if p.offerId.isSome then some .preStart else none
  legal := placementLegal
  tells e := e.source.isSome

def permanentChronicle : Chronicle PermanentPlacement PermanentState where
  id := (·.id)
  state := (·.lifecycleState)
  start _ := none
  legal := permanentLegal
  tells e := e.source.isSome

def proposalChronicle : Chronicle CommercialRevisionProposal ProposalState where
  id := (·.id)
  state := (·.state)
  start _ := none
  legal := proposalLegal
  tells _ := true

namespace OutboxEvent

def placementChange? : OutboxEvent → Option (Entry PlacementState)
  | .stateChanged change => some change
  | _ => none

def permanentChange? : OutboxEvent → Option (Entry PermanentState)
  | .permanentChanged _ change => some change
  | _ => none

def proposalChange? : OutboxEvent → Option (Entry ProposalState)
  | .proposalStateChanged change _ _ => some change
  | _ => none

end OutboxEvent

/-- The three tables keep their journals. -/
structure Journaled (d : PlacementDb) : Prop where
  placements : Kept placementChronicle d.placements d.placementEvents
    (d.outbox.filterMap OutboxEvent.placementChange?)
  permanents : Kept permanentChronicle d.permanents d.permanentEvents
    (d.outbox.filterMap OutboxEvent.permanentChange?)
  proposals : Kept proposalChronicle d.proposals (d.proposalEvents.map (·.entry))
    (d.outbox.filterMap OutboxEvent.proposalChange?)

section Told

variable {R S : Type} {c : Chronicle R S} {rows : List R} {journal : List (Entry S)}
  {outbox : List OutboxEvent} {event : OutboxEvent} {f : OutboxEvent → Option (Entry S)}

theorem kept_tell (h : Kept c rows journal (outbox.filterMap f ++ (f event).toList)) :
    Kept c rows journal ((outbox ++ [event]).filterMap f) := by
  cases hf : f event <;> simpa [filterMap_append, hf] using h

theorem kept_skip (h : Kept c rows journal (outbox.filterMap f)) (hf : f event = none) :
    Kept c rows journal ((outbox ++ [event]).filterMap f) := by
  simpa [filterMap_append, hf] using h

theorem kept_entries {c : Chronicle R ProposalState} {told : List (Entry ProposalState)}
    {events : List ProposalEvent} {event : ProposalEvent}
    (h : Kept c rows (events.map (·.entry) ++ [event.entry]) told) :
    Kept c rows ((events ++ [event]).map (·.entry)) told := by
  rwa [map_append]

end Told

theorem journaled_empty : Journaled .empty := ⟨Kept.nil, Kept.nil, Kept.nil⟩

/-! ## Writes beside the journals -/

/-- The writes that neither touch one of the three tables nor tell of one. -/
def WriteKind.aside : WriteKind → Bool
  | .insertPlacement | .movePlacement | .placementEvent | .insertPermanent | .movePermanent
  | .recordFalloff | .permanentEvent | .insertProposal | .moveProposal | .proposalEvent
  | .outboxChange => false
  | _ => true

namespace Journaled

variable {d : PlacementDb}

theorem write_aside (h : Journaled d) {w : Write} (hw : w.kind.aside = true) :
    Journaled (w.apply d) := by
  cases w with
  | placement w | permanent w | proposal w => cases w <;> cases hw
  | assignment w | rateVersion w | remedy w | offer w | term w =>
    cases w <;> exact ⟨h.placements, h.permanents, h.proposals⟩
  | lineage row => exact ⟨h.placements, h.permanents, h.proposals⟩
  | outbox event =>
    have hplain : event.isChange = false := by
      cases hchange : event.isChange with
      | false => rfl
      | true => simp [Write.kind, hchange, WriteKind.aside] at hw
    obtain ⟨hplacement, hpermanent, hproposal⟩ : event.placementChange? = none ∧
        event.permanentChange? = none ∧ event.proposalChange? = none := by
      cases event <;> first | exact ⟨rfl, rfl, rfl⟩ | cases hplain
    constructor
    · simpa [Write.apply, hplacement] using h.placements
    · simpa [Write.apply, hpermanent] using h.permanents
    · simpa [Write.apply, hproposal] using h.proposals

theorem writes_aside (h : Journaled d) {ws : List Write} (hws : ∀ w ∈ ws, w.kind.aside = true) :
    Journaled (applyAll ws d) := by
  induction ws generalizing d with
  | nil => exact h
  | cons w rest ih =>
    exact ih (h.write_aside (hws w mem_cons_self)) fun x hx =>
      hws x (mem_cons_of_mem w hx)

theorem aside_of_kinds {kinds : List WriteKind} (hkinds : kinds.all WriteKind.aside = true)
    {w : Write} (hw : w.kind ∈ kinds) : w.kind.aside = true :=
  all_eq_true.mp hkinds _ hw

/-! ## Moves -/

theorem move (h : Journaled d) {current : PlacementProcess} {target : PlacementState}
    (hcurrent : current ∈ d.placements) (hedge : canTransition current.state target = true) :
    Journaled (applyAll (moveWrites current target) d) where
  placements := kept_tell (h.placements.move hcurrent (fun _ => rfl) (fun _ =>
    rfl) (fun _ => rfl) hedge)
  permanents := kept_skip h.permanents rfl
  proposals := kept_skip h.proposals rfl

theorem fresh_of_insert {row : PlacementProcess} (h :
    (PlacementWrite.insert row).allowed d = true) :
    ∀ p ∈ d.placements, p.id ≠ row.id := by
  intro p hp
  simp only [PlacementWrite.allowed, Bool.and_eq_true, all_eq_true, bne_iff_ne] at h
  exact h.1 p hp

section

variable (h : Journaled d)

include h

theorem insertPlacement {row : PlacementProcess}
    (hrow : (PlacementWrite.insert row).allowed d = true) (hoffer : row.offerId.isSome = true)
    (hstate : row.state = .preStart) :
    Journaled ((PlacementWrite.insert row).apply d) where
  placements := by
    have hopened := h.placements.insert_silent (fresh_of_insert hrow)
      (forall_mem_nil _) (by simp [placementChronicle, hoffer, hstate]) rfl
    rwa [append_nil] at hopened
  permanents := h.permanents
  proposals := h.proposals

theorem insertTarget {row : PlacementProcess}
    (hrow : (PlacementWrite.insert row).allowed d = true) (hoffer : row.offerId = none)
    (hstate : row.state = .started) :
    Journaled (applyAll [.placement (.insert row),
      .placement (.event ⟨row.id, none, .started⟩)] d) where
  placements := h.placements.insert_silent (fresh_of_insert hrow)
    (forall_mem_singleton.mpr rfl)
    (by simp [placementChronicle, placementLegal, hoffer, hstate]) rfl
  permanents := h.permanents
  proposals := h.proposals

theorem insertPermanent {row : PermanentPlacement}
    (hrow : (PermanentWrite.insert row).allowed d = true)
    (hstate : row.lifecycleState = .guaranteeActive) :
    Journaled (applyAll (permanentWrites row) d) where
  placements := h.placements
  permanents := by
    have hfresh : ∀ p ∈ d.permanents, p.id ≠ row.id := by
      intro p hp
      simp only [PermanentWrite.allowed, all_eq_true, Bool.and_eq_true, bne_iff_ne] at hrow
      exact (hrow p hp).1
    exact h.permanents.insert_silent hfresh (forall_mem_singleton.mpr rfl)
      (by simp [permanentChronicle, permanentLegal, hstate]) rfl
  proposals := h.proposals

theorem movePermanent {current : PermanentPlacement} {target : PermanentState}
    {type : PermanentEventType} {w : Write} {f : PermanentPlacement → PermanentPlacement}
    (hw : w.apply d = { d with permanents := updateWhere (·.id == current.id) f d.permanents })
    (hid : ∀ p, (f p).id = p.id) (hstate : ∀ p, (f p).lifecycleState = target)
    (hcurrent : current ∈ d.permanents)
    (hedge : canTransitionPermanentPlacement current.lifecycleState target = true) :
    Journaled
      (applyAll (w :: permanentRecord type ⟨current.id,
        some current.lifecycleState, target⟩) d) := by
  rw [applyAll_cons, hw]
  exact {
    placements := kept_skip h.placements rfl
    permanents := kept_tell (h.permanents.move hcurrent hid (fun _ => rfl) hstate hedge)
    proposals := kept_skip h.proposals rfl }

theorem setPermanent {current : PermanentPlacement} {target : PermanentState}
    {type : PermanentEventType} (hcurrent : current ∈ d.permanents)
    (hedge : canTransitionPermanentPlacement current.lifecycleState target = true) :
    Journaled (applyAll (.permanent (.setState current.id target) ::
      permanentRecord type ⟨current.id, some current.lifecycleState, target⟩) d) :=
  h.movePermanent rfl (fun _ => rfl) (fun _ => rfl) hcurrent hedge

theorem insertProposal {row : CommercialRevisionProposal} {actorId : Nat}
    (hrow : (ProposalWrite.insert row).allowed d = true) (hstate : row.state = .draft) :
    Journaled (applyAll (.proposal (.insert row) ::
      proposalRecord ⟨row.id, none, .draft⟩ none actorId none) d) where
  placements := kept_skip h.placements rfl
  permanents := kept_skip h.permanents rfl
  proposals := by
    have hfresh : ∀ p ∈ d.proposals, p.id ≠ row.id := by
      intro p hp
      simp only [ProposalWrite.allowed, all_eq_true, Bool.and_eq_true, bne_iff_ne] at hrow
      exact (hrow p hp).1
    exact kept_entries (kept_tell (h.proposals.insert hfresh (forall_mem_singleton.mpr rfl)
      (by simp [proposalChronicle, proposalLegal, hstate])))

theorem moveProposal {p : CommercialRevisionProposal} {target : ProposalState}
    (evidence : ProposalEvidence) (action : Option CommercialApprovalAction) (actorId : Nat)
    (versionId : Option Nat) (hp : p ∈ d.proposals)
    (hedge : isLegalCommercialProposalTransition p.state target = true) :
    Journaled (applyAll (.proposal (.update p.id target evidence) ::
      proposalRecord ⟨p.id, some p.state, target⟩ action actorId versionId) d) where
  placements := kept_skip h.placements rfl
  permanents := kept_skip h.permanents rfl
  proposals := by
    have hid : ∀ x : CommercialRevisionProposal, (x.setState target evidence).id = x.id := by
      intro x
      cases evidence <;> rfl
    exact kept_entries (kept_tell (h.proposals.move hp hid (fun _ => rfl) (fun _ => rfl) hedge))

end

end Journaled

/-! ## Operations -/

/-- The loads before a transition. -/
def Query.loads : Query → Bool
  | .placement _ _ | .permanent _ _ | .proposal _ _ _ => true
  | _ => false

/-- The row that was loaded is still as it was. -/
abbrev LoadStands : placementStore.Check := Rereads Query.loads

section Programs

variable {d : PlacementDb}

theorem mem_of_loadedPlacement {t id : Nat} {p : PlacementProcess}
    (h : LoadStands (.read (.placement t id)) (some p) d) : p ∈ d.placements :=
  mem_of_find?_eq_some (h rfl).symm

theorem mem_of_loadedPermanent {t id : Nat} {p : PermanentPlacement}
    (h : LoadStands (.read (.permanent t id)) (some p) d) : p ∈ d.permanents :=
  mem_of_find?_eq_some (h rfl).symm

theorem mem_of_loadedProposal {t pid id : Nat} {p : CommercialRevisionProposal}
    (h : LoadStands (.read (.proposal t pid id)) (some p) d) : p ∈ d.proposals :=
  mem_of_find?_eq_some (h rfl).symm

namespace Journaled

theorem keeps_aside {op : PlacementOp} (h : Journaled d)
    (hkinds : op.kinds.all WriteKind.aside = true) :
    (placementProgram op).wp LoadStands (fun _ d' => Journaled d') d := by
  refine wp_of_kinds (fun w d' hw _ hd => hd.write_aside (aside_of_kinds hkinds hw)) ?_ h
  intro u d' _ _ hd
  exact ⟨hd.placements, hd.permanents, hd.proposals⟩

theorem aside_of_mem_endWrites {a : ContractAssignment} {versions : List AssignmentRateVersion}
    {reason : AssignmentEndReason} {tEnd endedBy : Nat} {w : Write}
    (hw : w ∈ endWrites a versions reason tEnd endedBy) : w.kind.aside = true :=
  aside_of_kinds (by decide) (kind_of_mem_endWrites hw)

theorem aside_of_mem_permanentOutbox {row : PermanentPlacement} {w : Write}
    (hw : w ∈ permanentOutbox row) : w.kind.aside = true := by
  simp only [permanentOutbox, mem_append, mem_cons, not_mem_nil, or_false,
    Option.mem_toList, Option.map_eq_some_iff] at hw
  rcases hw with (rfl | rfl) | ⟨v, -, rfl⟩ <;> rfl

section

variable (h : Journaled d)

include h

theorem createPlacement (input : CreatePlacementInput) (now : Nat) :
    (PlacementTx.createPlacement input now).wp LoadStands (fun _ d' => Journaled d') d := by
  refine wp_createPlacement fun offerId offer id _ _ _ _ => ?_
  intro row ws hadmits
  obtain ⟨hrow, -⟩ := (admitsAll_cons _ _ _).mp hadmits
  exact (h.insertPlacement hrow rfl rfl).writes_aside (forall_mem_singleton.mpr rfl)

theorem transition (input : TransitionInput) :
    (PlacementTx.transition input).wp LoadStands (fun _ d' => Journaled d') d := by
  refine wp_transition ?_ ?_ ?_
  · intro current hcurrent hedge _ _
    exact h.move (mem_of_loadedPlacement hcurrent) hedge
  · intro current assignmentId versionId companyId terms recordedBy hcurrent hedge _ a ws _
    have hmoved := h.move (mem_of_loadedPlacement hcurrent) hedge
    show Journaled (applyAll (moveWrites current .started ++ _) d)
    rw [applyAll_append]
    exact hmoved.writes_aside (by simp [contractWrites, Write.kind,
      OutboxEvent.isChange, WriteKind.aside])
  · intro current id guarantee hcurrent hedge _ row ws hadmits
    have hmoved := h.move (mem_of_loadedPlacement hcurrent) hedge
    obtain ⟨hpermanent, -⟩ := admitsAll_append.mp hadmits
    obtain ⟨-, hinsert⟩ := admitsAll_append.mp hpermanent
    obtain ⟨hrow, -⟩ := (admitsAll_cons _ _ _).mp hinsert
    show Journaled (applyAll (moveWrites current .started ++ permanentWrites row ++ _) d)
    rw [applyAll_append, applyAll_append]
    exact (hmoved.insertPermanent hrow rfl).writes_aside fun w => aside_of_mem_permanentOutbox

theorem convertToPermanent (input : ConvertInput) (txNow : Nat) :
    (PlacementTx.convertToPermanent input txNow).wp LoadStands (fun _ d' => Journaled d') d := by
  refine wp_convertToPermanent h ?_
  intro source a versions guarantee targetId permanentId lineageId _ _ _ _ _ ended target permanent
    lineage started _ _ hstarted
  have hended : Journaled (applyAll ended d) := h.writes_aside fun w => aside_of_mem_endWrites
  obtain ⟨hrow, -⟩ := (admitsAll_cons _ _ _).mp hstarted
  have htarget := hended.insertTarget hrow rfl rfl
  show Journaled (applyAll (_ ++ permanentWrites permanent ++ [.lineage lineage] ++
    permanentOutbox permanent ++ [.outbox (.assignmentConverted lineage)]) _)
  simp only [started, conversionWrites, append_assoc] at hstarted
  obtain ⟨-, hinsert⟩ := admitsAll_append.mp hstarted
  obtain ⟨hpermanent, -⟩ := (admitsAll_cons _ _ _).mp hinsert
  simp only [applyAll_append]
  refine Journaled.writes_aside (Journaled.writes_aside (Journaled.writes_aside
    (htarget.insertPermanent hpermanent rfl) (forall_mem_singleton.mpr rfl)) ?_)
    (forall_mem_singleton.mpr rfl)
  exact fun w => aside_of_mem_permanentOutbox

theorem permanentTransition (ref : PermanentRef) (target : PermanentState)
    (todayUtc : Nat) :
    (PlacementTx.permanentTransition ref target todayUtc).wp LoadStands (fun _ d' =>
      Journaled d') d := by
  refine wp_permanentTransition fun current hcurrent hedge _ => ?_
  intro ws _
  exact h.setPermanent (mem_of_loadedPermanent hcurrent) hedge

end

theorem canTransition_dueState (policy : RemedyPolicy) :
    canTransitionPermanentPlacement .fellOff policy.dueState = true := by
  cases policy <;> rfl

theorem recordFalloff (h : Journaled d) (input : FalloffInput) (now : Nat) :
    (PlacementTx.recordFalloff input now).wp LoadStands (fun _ d' => Journaled d') d := by
  refine wp_recordFalloff fun current id hcurrent hedge => ?_
  intro falloff ws _
  have hmem := mem_of_loadedPermanent hcurrent
  -- the falloff, then what is due
  have hfell : Journaled (applyAll (.permanent (.recordFalloff current.id falloff) ::
      permanentRecord .fellOff ⟨current.id, some current.lifecycleState, .fellOff⟩) d) :=
    h.movePermanent (f := (·.fallOff falloff)) rfl (fun _ => rfl) (fun _ => rfl) hmem hedge
  have hremedy := hfell.write_aside (w := .remedy (.insert (remedyRow id current falloff))) rfl
  have hrow : current.fallOff falloff ∈ updateWhere (·.id == current.id) (·.fallOff falloff)
      d.permanents := mem_updateWhere_of_pos hmem (beq_self_eq_true _)
  exact hremedy.setPermanent hrow
    (canTransition_dueState current.guarantee.terms.remedyPolicy)

theorem completeRemedy (h : Journaled d) (input : CompletionInput) (now : Nat) :
    (PlacementTx.completeRemedy input now).wp LoadStands (fun _ d' => Journaled d') d := by
  refine wp_completeRemedy fun current remedy completion hcurrent _ _ hdue _ => ?_
  have hedge : canTransitionPermanentPlacement current.lifecycleState .remedyCompleted = true := by
    revert hdue
    cases current.lifecycleState <;> decide
  have hremedy := h.write_aside (w := .remedy (.complete remedy.id completion)) rfl
  exact hremedy.setPermanent (mem_of_loadedPermanent hcurrent) hedge

theorem propose (h : Journaled d) (input : ProposeInput) :
    (createCommercialRevisionProposal input).wp LoadStands (fun _ d' => Journaled d') d := by
  refine wp_createCommercialRevisionProposal fun a reference id _ => ?_
  intro ws hadmits
  obtain ⟨hrow, -⟩ := (admitsAll_cons _ _ _).mp hadmits
  exact h.insertProposal hrow rfl

theorem isLegal_of_governing {source target : ProposalState} {action : CommercialApprovalAction}
    (h : governingCommercialProposalAction source target = some action) :
    isLegalCommercialProposalTransition source target = true := by
  rw [← governingCommercialProposalAction_isSome, h]
  rfl

theorem decideProposal (h : Journaled d) (input : DecideInput) (now : Nat) :
    (decideCommercialRevisionProposal input now).wp LoadStands (fun _ d' => Journaled d') d := by
  refine wp_decideCommercialRevisionProposal ?_ h ?_
  · intro p hp hgoverned _ _ _ _ ws _
    exact h.moveProposal _ _ _ _ (mem_of_loadedProposal hp) (isLegal_of_governing hgoverned)
  · intro p found a predecessor versionId hp _ hstate _ _ _ _ _ _ _ _ tNew _ successor ws _
    have hrates : Journaled (applyAll (appendWrites predecessor successor) d) :=
      h.writes_aside (by simp [appendWrites, Write.kind, OutboxEvent.isChange, WriteKind.aside])
    have hedge : isLegalCommercialProposalTransition p.state .applied = true := by
      rw [hstate]
      rfl
    have hmoved := hrates.moveProposal (.applied versionId input.actorId now) (some .apply)
      input.actorId (some versionId) (mem_of_loadedProposal hp) hedge
    rw [hstate] at hmoved
    rwa [← applyAll_append] at hmoved

end Journaled

/-- **One operation** that commits on the row that it loaded. -/
theorem journaled_placementProgram (op : PlacementOp) (h : Journaled d) :
    (placementProgram op).wp LoadStands (fun _ d' => Journaled d') d := by
  cases op with
  | createPlacement input now => exact wp_giving (h.createPlacement input now)
  | transition input => exact wp_giving (h.transition input)
  | convertToPermanent input txNow => exact wp_giving (h.convertToPermanent input txNow)
  | permanentTransition ref target todayUtc =>
    exact wp_giving (h.permanentTransition ref target todayUtc)
  | recordFalloff input now => exact wp_giving (h.recordFalloff input now)
  | completeRemedy input now => exact wp_giving (h.completeRemedy input now)
  | propose input => exact wp_giving (h.propose input)
  | moveProposal ref withdraw actorId =>
    refine wp_giving (wp_transitionCommercialRevisionProposal fun p => ?_)
    intro action hp hgoverned _
    exact h.moveProposal _ _ _ _ (mem_of_loadedProposal hp)
      (Journaled.isLegal_of_governing hgoverned)
  | decideProposal input now => exact wp_giving (h.decideProposal input now)
  | _ => exact h.keeps_aside (by rfl)

end Programs

/-! ## Runs -/

/-- A move of the database in which every commit finds the rows that it loaded
as they were. -/
abbrev LoadedPlacementStep :=
  Guarded (World.Step placementProgram) (@CommitsOn _ _ LoadStands PlacementOp)

/-- From one state to a later one the journals go on. -/
structure JournalsContinue (d d' : PlacementDb) : Prop where
  placements : GoesOn placementChronicle d.placements d.placementEvents d'.placements
    d'.placementEvents
  permanents : GoesOn permanentChronicle d.permanents d.permanentEvents d'.permanents
    d'.permanentEvents
  proposals : GoesOn proposalChronicle d.proposals (d.proposalEvents.map (·.entry)) d'.proposals
    (d'.proposalEvents.map (·.entry))

theorem Journaled.continues {d d' : PlacementDb} (h : Journaled d) (h' : Journaled d')
    (hlater : Persists d d') : JournalsContinue d d' where
  placements := by
    refine h.placements.goesOn h'.placements hlater.placementEvents fun p hp => ?_
    obtain ⟨p', hp', hfixed⟩ := exists_of_prefix_map hlater.placements hp
    obtain ⟨hid, -, hoffer, -⟩ := PlacementProcess.of_fixed hfixed
    exact ⟨p', hp', hid, by simp only [placementChronicle, hoffer]⟩
  permanents := by
    refine h.permanents.goesOn h'.permanents hlater.permanentEvents fun p hp => ?_
    obtain ⟨p', hp', hfixed⟩ := exists_of_prefix_map hlater.permanents hp
    exact ⟨p', hp', (PermanentPlacement.of_fixed hfixed).1, rfl⟩
  proposals := by
    refine h.proposals.goesOn h'.proposals (hlater.proposalEvents.map _) fun p hp => ?_
    obtain ⟨p', hp', hfixed⟩ := exists_of_prefix_map hlater.proposals hp
    have hid : p'.fixed.id = p.fixed.id := congrArg CommercialRevisionProposal.id hfixed
    exact ⟨p', hp', hid, rfl⟩

/-- **Lifecycle logs.** In a run whose commits all find the rows that they
loaded as they were, the events of each row lead from its first state to the
one it is in, along edges of the registry, and the outbox tells of the same
moves; and each commit appends, for each row, the path that it takes. -/
theorem lifecycle_logs_are_taken {moves : List (Move PlacementOp)}
    {w : World placementStore PlacementOutcome}
    (hrun : Run LoadedPlacementStep (World.quiet .empty) moves w) :
    Journaled w.db ∧ ∀ m w', LoadedPlacementStep w m w' → JournalsContinue w.db w'.db := by
  obtain ⟨hcourse, hkept⟩ := World.invariant_of_run (fun op _ hd =>
    journaled_placementProgram op hd)
    hrun (World.onCourse_quiet _) journaled_empty
  refine ⟨hkept, fun m w' hstep => hkept.continues ?_ (persists_of_step hcourse hstep.1)⟩
  exact (World.invariant_of_run (fun op _ hd => journaled_placementProgram op hd)
    (.cons hstep (.nil _))
    hcourse hkept).2

/-! ### Two moves of one placement -/

def moveFirstPlacement (target : PlacementState) : PlacementOp :=
  .transition ⟨1, 202, target, true, none, none, none, none, none, 9⟩

/-- It is blocked, and then falls through. -/
def movedInTurn : List (Move PlacementOp) :=
  oneAttempt ++ [.start (moveFirstPlacement .blocked)] ++ World.advances 0 0 4 ++
    [.commit 0, .start (moveFirstPlacement .fellThrough)] ++ World.advances 0 0 4 ++ [.commit 0]

theorem lifecycle_logs_in_turn : ∃ w : World placementStore PlacementOutcome,
    Run LoadedPlacementStep (World.quiet .empty) movedInTurn w ∧
      w.db.placementEvents =
        [⟨202, some .preStart, .blocked⟩, ⟨202, some .blocked, .fellThrough⟩] ∧
      Journaled w.db := by
  obtain ⟨w, hrun, hp⟩ := World.guardedRun_of_moves placementProgram LoadStands
    (World.quiet .empty) movedInTurn
    (fun w : World placementStore PlacementOutcome => w.db.placementEvents ==
      [⟨202, some .preStart, .blocked⟩, ⟨202, some .blocked, .fellThrough⟩]) (by decide +kernel)
  exact ⟨w, hrun, beq_iff_eq.mp hp, (lifecycle_logs_are_taken hrun).1⟩

/-- Both requests have loaded it when the first one writes. -/
def movedAtOnce : List (Move PlacementOp) :=
  oneAttempt ++ [.start (moveFirstPlacement .blocked), .start (moveFirstPlacement .fellThrough),
    .advance 0 0, .advance 1 0] ++ World.advances 0 0 3 ++ [.commit 0] ++ World.advances 0 0 3 ++
    [.commit 0]

/-- The second one records a move that was not made. -/
theorem lifecycle_log_not_taken : ∃ w : World placementStore PlacementOutcome,
    Run (World.Step placementProgram) (World.quiet .empty) movedAtOnce w ∧
      w.db.placementEvents =
        [⟨202, some .preStart, .blocked⟩, ⟨202, some .preStart, .fellThrough⟩] ∧
      ¬Journaled w.db := by
  obtain ⟨w, hrun, hp⟩ := World.run_of_moves placementProgram (World.quiet .empty) movedAtOnce
    (fun w : World placementStore PlacementOutcome => w.db.placements.map (·.id) == [202] &&
      w.db.placementEvents ==
        [⟨202, some .preStart, .blocked⟩, ⟨202, some .preStart, .fellThrough⟩]) (by decide +kernel)
  obtain ⟨hids, hevents⟩ := Bool.and_eq_true_iff.mp hp
  refine ⟨w, hrun, beq_iff_eq.mp hevents, fun h => ?_⟩
  obtain ⟨p, hp, hid⟩ : ∃ p ∈ w.db.placements, p.id = 202 :=
    mem_map.mp (beq_iff_eq.mp hids ▸ mem_cons_self)
  have htraces := h.placements.traces p hp
  rw [beq_iff_eq.mp hevents, show placementChronicle.id p = 202 from hid] at htraces
  -- the second event does not start where the first one ended
  obtain ⟨-, -, hsource, -⟩ := htraces
  cases hsource

/-! ## What is written stays -/

/-- The placement is blocked. -/
def blockedFirst : List (Move PlacementOp) :=
  oneAttempt ++ [.start (moveFirstPlacement .blocked)] ++ World.advances 0 0 4 ++ [.commit 0]

/-- Then it falls through. -/
def fallsThrough : List (Move PlacementOp) :=
  [.start (moveFirstPlacement .fellThrough)] ++ World.advances 0 0 4 ++ [.commit 0]

end AramoPlatform.Placement
