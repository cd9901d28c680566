import AramoPlatform.Placement.Frames

/-!
# What no operation takes back

Rows are never deleted, and of each row only some columns are ever updated. So
of two states of the database, one later than the other, each table of the
first is a prefix of the table of the second, but for these columns.
-/

namespace AramoPlatform.Placement

open Lib PlacementTx List

/-! ## The columns that stay -/

/-- Without its state. -/
def PlacementProcess.fixed (p : PlacementProcess) : PlacementProcess := p.setState .preStart

/-- Without its end. -/
def ContractAssignment.fixed (a : ContractAssignment) : ContractAssignment :=
  { a with
    lifecycleState := .active
    endReason := none
    endedAt := none }

/-- Without the end of its window and its cancellation. -/
def AssignmentRateVersion.fixed (v : AssignmentRateVersion) : AssignmentRateVersion :=
  { v with
    effectiveTo := none
    cancellation := none }

/-- Without its state and falloff. -/
def PermanentPlacement.fixed (p : PermanentPlacement) : PermanentPlacement :=
  { p with
    lifecycleState := .guaranteeActive
    falloff := none }

/-- Without its completion. -/
def PermanentPlacementRemedy.fixed (r : PermanentPlacementRemedy) : PermanentPlacementRemedy :=
  { r with completion := none }

/-- Whose offer it is. -/
def Offer.fixed (o : Offer) : Nat × Engagement := (o.id, o.engagement)

/-- Without its state and what goes with it. -/
def CommercialRevisionProposal.fixed (p : CommercialRevisionProposal) :
    CommercialRevisionProposal :=
  { p with
    state := .draft
    reviewDecidedBy := none
    clientApprovalRecordedBy := none
    rejectedBy := none
    appliedRateVersionId := none
    appliedBy := none
    appliedAt := none }

/-- Without the end of its window. -/
def GuaranteeTermVersion.fixed (v : GuaranteeTermVersion) : GuaranteeTermVersion := v.endAt none

theorem PlacementProcess.of_fixed {p p' : PlacementProcess} (h : p'.fixed = p.fixed) :
    p'.id = p.id ∧ p'.engagement = p.engagement ∧ p'.offerId = p.offerId ∧
      p'.placementKind = p.placementKind ∧
      p'.replacesPlacementProcessId = p.replacesPlacementProcessId := by
  simp only [PlacementProcess.fixed, PlacementProcess.setState, PlacementProcess.mk.injEq] at h
  tauto

theorem ContractAssignment.of_fixed {a a' : ContractAssignment} (h : a'.fixed = a.fixed) :
    a'.id = a.id ∧ a'.engagement = a.engagement ∧ a'.placementProcessId = a.placementProcessId := by
  simp only [ContractAssignment.fixed, ContractAssignment.mk.injEq] at h
  tauto

theorem PermanentPlacement.of_fixed {p p' : PermanentPlacement} (h : p'.fixed = p.fixed) :
    p'.id = p.id ∧ p'.engagement = p.engagement ∧ p'.placementProcessId = p.placementProcessId := by
  simp only [PermanentPlacement.fixed, PermanentPlacement.mk.injEq] at h
  tauto

/-! ## Persistence -/

section Prefixes

variable {α β : Type} {f : α → β} {rows rows' : List α}

theorem prefix_map_append (f : α → β) (rows more : List α) :
    rows.map f <+: (rows ++ more).map f := by
  rw [map_append]
  exact prefix_append _ _

theorem prefix_map_updateWhere {p : α → Bool} {g : α → α} (hg : ∀ x, f (g x) = f x) :
    rows.map f <+: (updateWhere p g rows).map f := by
  rw [map_updateWhere f hg]

theorem exists_of_prefix_map (h : rows.map f <+: rows'.map f) {r : α} (hr : r ∈ rows) :
    ∃ r' ∈ rows', f r' = f r :=
  mem_map.mp (h.subset (mem_map_of_mem hr))

end Prefixes

/-- The second state is a later one. -/
structure Persists (d d' : PlacementDb) : Prop where
  placements : d.placements.map PlacementProcess.fixed <+: d'.placements.map PlacementProcess.fixed
  placementEvents : d.placementEvents <+: d'.placementEvents
  assignments :
    d.assignments.map ContractAssignment.fixed <+: d'.assignments.map ContractAssignment.fixed
  rateVersions :
    d.rateVersions.map AssignmentRateVersion.fixed <+: d'.rateVersions.map
      AssignmentRateVersion.fixed
  permanents : d.permanents.map PermanentPlacement.fixed <+: d'.permanents.map
    PermanentPlacement.fixed
  permanentEvents : d.permanentEvents <+: d'.permanentEvents
  remedies :
    d.remedies.map PermanentPlacementRemedy.fixed <+: d'.remedies.map PermanentPlacementRemedy.fixed
  lineages : d.lineages <+: d'.lineages
  offers : d.offers.map Offer.fixed <+: d'.offers.map Offer.fixed
  offerEvents : d.offerEvents <+: d'.offerEvents
  offerRevisions : d.offerRevisions <+: d'.offerRevisions
  proposals : d.proposals.map CommercialRevisionProposal.fixed <+:
    d'.proposals.map CommercialRevisionProposal.fixed
  proposalEvents : d.proposalEvents <+: d'.proposalEvents
  termVersions :
    d.termVersions.map GuaranteeTermVersion.fixed <+: d'.termVersions.map GuaranteeTermVersion.fixed
  outbox : d.outbox <+: d'.outbox

namespace Persists

variable {d d' d'' : PlacementDb}

theorem refl (d : PlacementDb) : Persists d d := by
  constructor <;> exact prefix_rfl

theorem trans (h : Persists d d') (h' : Persists d' d'') : Persists d d'' where
  placements := h.placements.trans h'.placements
  placementEvents := h.placementEvents.trans h'.placementEvents
  assignments := h.assignments.trans h'.assignments
  rateVersions := h.rateVersions.trans h'.rateVersions
  permanents := h.permanents.trans h'.permanents
  permanentEvents := h.permanentEvents.trans h'.permanentEvents
  remedies := h.remedies.trans h'.remedies
  lineages := h.lineages.trans h'.lineages
  offers := h.offers.trans h'.offers
  offerEvents := h.offerEvents.trans h'.offerEvents
  offerRevisions := h.offerRevisions.trans h'.offerRevisions
  proposals := h.proposals.trans h'.proposals
  proposalEvents := h.proposalEvents.trans h'.proposalEvents
  termVersions := h.termVersions.trans h'.termVersions
  outbox := h.outbox.trans h'.outbox

theorem fixed_setState (target : ProposalState) (evidence : ProposalEvidence)
    (p : CommercialRevisionProposal) : (p.setState target evidence).fixed = p.fixed := by
  cases evidence <;> rfl

theorem write (d : PlacementDb) (w : Write) : Persists d (w.apply d) := by
  have h := refl d
  cases w with
  | placement w =>
    cases w with
    | insert row => exact { h with placements := prefix_map_append _ _ _ }
    | setState id target => exact { h with placements := prefix_map_updateWhere fun _ => rfl }
    | event entry => exact { h with placementEvents := prefix_append _ _ }
  | assignment w =>
    cases w with
    | insert row => exact { h with assignments := prefix_map_append _ _ _ }
    | setEnded id reason endedAt =>
      exact { h with assignments := prefix_map_updateWhere fun _ => rfl }
  | rateVersion w =>
    cases w with
    | insert row => exact { h with rateVersions := prefix_map_append _ _ _ }
    | close | reopen | cancel =>
      exact { h with rateVersions := prefix_map_updateWhere fun _ => rfl }
  | permanent w =>
    cases w with
    | insert row => exact { h with permanents := prefix_map_append _ _ _ }
    | setState | recordFalloff => exact { h with permanents := prefix_map_updateWhere fun _ => rfl }
    | event entry => exact { h with permanentEvents := prefix_append _ _ }
  | remedy w =>
    cases w with
    | insert row => exact { h with remedies := prefix_map_append _ _ _ }
    | complete id completion => exact { h with remedies := prefix_map_updateWhere fun _ => rfl }
  | lineage row => exact { h with lineages := prefix_append _ _ }
  | offer w =>
    cases w with
    | insert row => exact { h with offers := prefix_map_append _ _ _ }
    | event entry => exact { h with offerEvents := prefix_append _ _ }
    | insertRevision row => exact { h with offerRevisions := prefix_append _ _ }
  | proposal w =>
    cases w with
    | insert row => exact { h with proposals := prefix_map_append _ _ _ }
    | update id target evidence =>
      exact { h with proposals := prefix_map_updateWhere (fixed_setState target evidence) }
    | event row => exact { h with proposalEvents := prefix_append _ _ }
  | term w =>
    cases w with
    | insert row => exact { h with termVersions := prefix_map_append _ _ _ }
    | close id effectiveTo => exact { h with termVersions := prefix_map_updateWhere fun _ => rfl }
  | outbox event => exact { h with outbox := prefix_append _ _ }

theorem updateOffer (d : PlacementDb) (u : OfferUpdate) : Persists d (u.apply d) :=
  { refl d with offers := prefix_map_updateWhere fun _ => rfl }

/-- **Every operation** leaves a later state. -/
theorem program (ok : placementStore.Check) (op : PlacementOp) (d : PlacementDb) :
    (placementProgram op).wp ok (fun _ d' => Persists d d') d :=
  wp_of_kinds (fun w d' _ _ hd => hd.trans (write d' w))
    (fun u d' _ _ hd => hd.trans (updateOffer d' u)) (refl d)

end Persists

theorem persists_of_step {w w' : World placementStore PlacementOutcome} {m : Move PlacementOp}
    (hw : World.OnCourse placementProgram w) (h : World.Step placementProgram w m w') :
    Persists w.db w'.db := by
  have hstep : Guarded (World.Step placementProgram) (CommitsOn fun _ _ _ => True) w m w' :=
    ⟨h, fun _ _ f _ => stands_of_forall (fun _ _ _ => trivial) f.trace w.db⟩
  exact World.commit_of_step (I := fun _ => True) Persists.refl
    (fun op d _ => Persists.program _ op d) hw trivial hstep

/-! ## Tables that a write does not touch -/

section Tables

variable {w : Write} (d : PlacementDb)

theorem placements_apply (hinsert : w.kind ≠ .insertPlacement) (hmove : w.kind ≠ .movePlacement) :
    (w.apply d).placements = d.placements := by
  cases w with
  | placement w =>
    cases w with
    | insert row => exact absurd rfl hinsert
    | setState id target => exact absurd rfl hmove
    | event entry => rfl
  | assignment w | rateVersion w | permanent w | remedy w | offer w | proposal w | term w =>
    cases w <;> rfl
  | lineage row | outbox event => rfl

theorem assignments_apply (hinsert : w.kind ≠ .insertAssignment) (hend : w.kind ≠ .endAssignment) :
    (w.apply d).assignments = d.assignments := by
  cases w with
  | assignment w =>
    cases w with
    | insert row => exact absurd rfl hinsert
    | setEnded id reason endedAt => exact absurd rfl hend
  | placement w | rateVersion w | permanent w | remedy w | offer w | proposal w | term w =>
    cases w <;> rfl
  | lineage row | outbox event => rfl

theorem permanents_apply (hinsert : w.kind ≠ .insertPermanent) (hmove : w.kind ≠ .movePermanent)
    (hfalloff : w.kind ≠ .recordFalloff) : (w.apply d).permanents = d.permanents := by
  cases w with
  | permanent w =>
    cases w with
    | insert row => exact absurd rfl hinsert
    | setState id target => exact absurd rfl hmove
    | recordFalloff id falloff => exact absurd rfl hfalloff
    | event entry => rfl
  | placement w | assignment w | rateVersion w | remedy w | offer w | proposal w | term w =>
    cases w <;> rfl
  | lineage row | outbox event => rfl

theorem lineages_apply (hlineage : w.kind ≠ .lineage) : (w.apply d).lineages = d.lineages := by
  cases w with
  | lineage row => exact absurd rfl hlineage
  | placement w | assignment w | rateVersion w | permanent w | remedy w | offer w | proposal w
  | term w => cases w <;> rfl
  | outbox event => rfl

theorem offers_apply (hinsert : w.kind ≠ .insertOffer) : (w.apply d).offers = d.offers := by
  cases w with
  | offer w =>
    cases w with
    | insert row => exact absurd rfl hinsert
    | event entry | insertRevision row => rfl
  | placement w | assignment w | rateVersion w | permanent w | remedy w | proposal w | term w =>
    cases w <;> rfl
  | lineage row | outbox event => rfl

theorem applyAll_frame {β : Type} {field : PlacementDb → β} {ws : List Write}
    (h : ∀ w ∈ ws, ∀ d, field (w.apply d) = field d) : field (applyAll ws d) = field d := by
  induction ws generalizing d with
  | nil => rfl
  | cons w rest ih =>
    rw [applyAll_cons, ih _ fun x hx => h x (mem_cons_of_mem w hx)]
    exact h w mem_cons_self d

theorem applyAll_outbox {ws : List Write} (h : ∀ w ∈ ws, ∃ event, w = .outbox event) :
    ∃ more, applyAll ws d = { d with outbox := d.outbox ++ more } := by
  induction ws generalizing d with
  | nil => exact ⟨[], by simp⟩
  | cons w rest ih =>
    obtain ⟨event, rfl⟩ := h w mem_cons_self
    obtain ⟨more, hmore⟩ := ih ((Write.outbox event).apply d)
      fun x hx => h x (mem_cons_of_mem _ hx)
    exact ⟨event :: more, by rw [applyAll_cons, hmore]; simp [Write.apply]⟩

theorem tables_endWrites (a : ContractAssignment) (versions : List AssignmentRateVersion)
    (reason : AssignmentEndReason) (tEnd endedBy : Nat) :
    let d' := applyAll (endWrites a versions reason tEnd endedBy) d
    d'.placements = d.placements ∧
      d'.assignments = updateWhere (·.id == a.id) (·.setEnded reason tEnd) d.assignments ∧
      d'.permanents = d.permanents ∧ d'.lineages = d.lineages ∧ d'.offers = d.offers := by
  have hkind : ∀ w ∈ reconcileWrites versions tEnd endedBy,
      w.kind = .changeRateVersion ∨ w.kind = .outbox := by
    intro w hw
    simpa using kind_of_mem_reconcileWrites hw
  have hplacements :
    (applyAll (reconcileWrites versions tEnd endedBy) d).placements = d.placements :=
    applyAll_frame d fun w hw d => by
      rcases hkind w hw with h | h <;> exact placements_apply d (by simp [h]) (by simp [h])
  have hassignments :
    (applyAll (reconcileWrites versions tEnd endedBy) d).assignments = d.assignments :=
    applyAll_frame d fun w hw d => by
      rcases hkind w hw with h | h <;> exact assignments_apply d (by simp [h]) (by simp [h])
  have hpermanents :
    (applyAll (reconcileWrites versions tEnd endedBy) d).permanents = d.permanents :=
    applyAll_frame d fun w hw d => by
      rcases hkind w hw with h | h <;>
        exact permanents_apply d (by simp [h]) (by simp [h]) (by simp [h])
  have hlineages : (applyAll (reconcileWrites versions tEnd endedBy) d).lineages = d.lineages :=
    applyAll_frame d fun w hw d => by
      rcases hkind w hw with h | h <;> exact lineages_apply d (by simp [h])
  have hoffers : (applyAll (reconcileWrites versions tEnd endedBy) d).offers = d.offers :=
    applyAll_frame d fun w hw d => by
      rcases hkind w hw with h | h <;> exact offers_apply d (by simp [h])
  simp only [endWrites, applyAll_append, applyAll_cons, applyAll_nil]
  refine ⟨hplacements, ?_, hpermanents, hlineages, hoffers⟩
  show updateWhere _ _ _ = _
  rw [hassignments]

theorem tables_conversionWrites (target : PlacementProcess) (permanent : PermanentPlacement)
    (lineage : ConversionLineage) :
    let d' := applyAll (conversionWrites target permanent lineage) d
    d'.placements = d.placements ++ [target] ∧ d'.assignments = d.assignments ∧
      d'.permanents = d.permanents ++ [permanent] ∧ d'.lineages = d.lineages ++ [lineage] ∧
      d'.offers = d.offers := by
  have hevents : ∀ w ∈ permanentOutbox permanent ++ [.outbox (.assignmentConverted lineage)],
      ∃ event, w = .outbox event := by
    intro w hw
    simp only [permanentOutbox, mem_append, mem_cons, not_mem_nil, or_false,
      Option.mem_toList, Option.map_eq_some_iff] at hw
    rcases hw with ((rfl | rfl) | ⟨v, -, rfl⟩) | rfl <;> exact ⟨_, rfl⟩
  simp only [conversionWrites, append_assoc]
  rw [← append_assoc, ← append_assoc, applyAll_append]
  obtain ⟨more, hmore⟩ := applyAll_outbox (applyAll ([.placement (.insert target),
    .placement (.event ⟨target.id, none, .started⟩)] ++ permanentWrites permanent ++
      [.lineage lineage]) d) hevents
  rw [hmore]
  exact ⟨rfl, rfl, rfl, rfl, rfl⟩

end Tables

/-! ## One operation at a time -/

/-- An operation with the tables to itself, and the ids that it draws. -/
def AtomicStep (d : PlacementDb) (call : PlacementOp × List Nat) (d' : PlacementDb) : Prop :=
  oneAtATime (σ := placementStore) .violation placementProgram d call = some d'

/-- The same under a condition on the rows and the operation. -/
abbrev AtomicStepOf (P : PlacementDb → PlacementOp → Prop) :=
  Guarded AtomicStep fun d (call : PlacementOp × List Nat) => P d call.1

theorem atomicRun_of_calls (P : PlacementDb → PlacementOp → Prop) [∀ d op, Decidable (P d op)]
    (d : PlacementDb) (calls : List (PlacementOp × List Nat)) (p : PlacementDb → Bool)
    (h : (exec (fun d call => if decide (P d call.1) then
      oneAtATime (σ := placementStore) .violation placementProgram d call
        else none) d calls).any p =
        true) :
    ∃ d', Run (AtomicStepOf P) d calls d' ∧ p d' = true :=
  run_of_exec (fun _ _ _ hone => guarded_of_next (fun _ _ _ hstep => hstep)
    (fun _ _ htest => of_decide_eq_true htest) hone) h

end AramoPlatform.Placement
