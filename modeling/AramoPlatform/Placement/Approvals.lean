import AramoPlatform.Lib.UniqueIndex
import AramoPlatform.Placement.Lineage

/-!
# Commercial changes

A proposal of new rates goes from its draft to its application by decisions of
others than the requester, no two of which in a row are by one actor. Who has
decided is checked on a row that was read before the transaction. A decision
that commits has found the proposal in the state that it was read in, and the
columns of a proposal change with its state only: so the row was still as it
had been read.
-/

namespace AramoPlatform.Placement

open Js Lib PlacementTx List

/-! ## What a proposal says of its approvals -/

/-- The requester takes no step of authority, and no two steps in a row are
taken by one actor. -/
structure Duties (p : CommercialRevisionProposal) : Prop where
  review : p.reviewDecidedBy ≠ some p.requestedBy
  client : p.clientApprovalRecordedBy ≠ some p.requestedBy
  rejection : p.rejectedBy ≠ some p.requestedBy
  application : p.appliedBy ≠ some p.requestedBy
  recorder : ∀ u, p.clientApprovalRecordedBy = some u → p.reviewDecidedBy ≠ some u
  applier : ∀ u, p.appliedBy = some u → p.clientApprovalRecordedBy ≠ some u

/-- The margin was approved on the way to this state. -/
def ProposalState.reviewed : ProposalState → Bool
  | .pendingClientApproval | .approved | .applied => true
  | _ => false

/-- The client approved on the way to this state. -/
def ProposalState.clientApproved : ProposalState → Bool
  | .approved | .applied => true
  | _ => false

/-- The columns that go with a state. -/
structure Staged (p : CommercialRevisionProposal) : Prop where
  reviewed : p.state.reviewed = true → p.reviewDecidedBy.isSome = true
  clientApproved : p.state.clientApproved = true → p.clientApprovalRecordedBy.isSome = true
  unrecorded : p.state = .draft ∨ p.state = .pendingReview → p.clientApprovalRecordedBy = none
  applier : p.appliedBy.isSome = true ↔ p.state = .applied
  version : p.appliedRateVersionId.isSome = true ↔ p.state = .applied

/-- The version that the application of a proposal appends: at the instant
that was proposed, or else at that of the application. -/
structure AppliedAs (p : CommercialRevisionProposal) (v : AssignmentRateVersion) : Prop where
  version : p.appliedRateVersionId = some v.id
  tenant : v.tenantId = p.tenantId
  assignment : v.contractAssignmentId = p.contractAssignmentId
  terms : v.terms = p.proposed
  instant : (p.proposedEffectiveFrom <|> p.appliedAt) = some v.effectiveFrom

theorem AssignmentRateVersion.of_fixed {v v' : AssignmentRateVersion} (h : v'.fixed = v.fixed) :
    v'.id = v.id ∧ v'.tenantId = v.tenantId ∧ v'.contractAssignmentId = v.contractAssignmentId ∧
      v'.terms = v.terms ∧ v'.effectiveFrom = v.effectiveFrom := by
  simp only [AssignmentRateVersion.fixed, AssignmentRateVersion.mk.injEq] at h
  tauto

theorem CommercialRevisionProposal.of_fixed {p p' : CommercialRevisionProposal}
    (h : p'.fixed = p.fixed) :
    p'.id = p.id ∧ p'.tenantId = p.tenantId ∧ p'.contractAssignmentId = p.contractAssignmentId ∧
      p'.placementProcessId = p.placementProcessId ∧ p'.requestedBy = p.requestedBy := by
  simp only [CommercialRevisionProposal.fixed, CommercialRevisionProposal.mk.injEq] at h
  tauto

theorem AppliedAs.of_fixed {p : CommercialRevisionProposal} {v v' : AssignmentRateVersion}
    (h : AppliedAs p v) (hfixed : v'.fixed = v.fixed) : AppliedAs p v' := by
  obtain ⟨hid, htenant, hassignment, hterms, hfrom⟩ := AssignmentRateVersion.of_fixed hfixed
  exact ⟨hid ▸ h.version, htenant.trans h.tenant, hassignment.trans h.assignment,
    hterms.trans h.terms,
    hfrom ▸ h.instant⟩

/-! ## Steps of a proposal -/

/-- The states that an action starts from. -/
def StartsFrom (source : ProposalState) : CommercialApprovalAction → Prop
  | .submit => source = .draft
  | .marginApprove => source = .pendingReview
  | .clientApprove => source = .pendingClientApproval
  | .apply => source = .approved
  | .reject | .withdraw => source.isOpen = true

theorem startsFrom_of_governing {source : ProposalState} {action : CommercialApprovalAction}
    (h : governingCommercialProposalAction source action.target = some action) :
    StartsFrom source action := by
  cases action <;> cases source <;> first | rfl | cases h

/-- A proposal whose columns are in order. -/
structure Proper (p : CommercialRevisionProposal) : Prop where
  duties : Duties p
  staged : Staged p

namespace Proper

variable {p : CommercialRevisionProposal}

theorem draft (input : ProposeInput) (id : Nat) (a : ContractAssignment)
    (reference : AssignmentRateVersion) : Proper (input.row id a reference) where
  duties := by constructor <;> simp [ProposeInput.row]
  staged := by
    constructor <;> simp [ProposeInput.row, ProposalState.reviewed, ProposalState.clientApproved]

theorem unapplied (h : Proper p) (hstate : p.state ≠ .applied) :
    p.appliedBy = none ∧ p.appliedRateVersionId = none := by
  have happlier := mt h.staged.applier.mp hstate
  have hversion := mt h.staged.version.mp hstate
  exact ⟨by simpa using happlier, by simpa using hversion⟩

theorem move (h : Proper p) {action : CommercialApprovalAction} {actorId : Nat}
    (hgoverned : governingCommercialProposalAction p.state action.target = some action)
    (happly : action ≠ .apply) (hself : action.isAuthority = true → actorId ≠ p.requestedBy)
    (hstages : stagesSeparate p action actorId = true) :
    Proper (p.setState action.target (decisionEvidence action actorId)) := by
  have hsource := startsFrom_of_governing hgoverned
  have hopen : p.state ≠ .applied := by
    intro happlied
    rw [happlied] at hgoverned
    cases action <;> cases hgoverned
  obtain ⟨hunapplied, hunversioned⟩ := h.unapplied hopen
  obtain ⟨hduties, hstaged⟩ := h
  cases action with
  | apply => exact absurd rfl happly
  | submit =>
    have hunrecorded := hstaged.unrecorded (.inl hsource)
    constructor
    · exact ⟨hduties.review, hduties.client, hduties.rejection, hduties.application,
        hduties.recorder, hduties.applier⟩
    · constructor <;> simp [CommercialRevisionProposal.setState, decisionEvidence,
        ProposalEvidence.onProposal, CommercialApprovalAction.target, ProposalState.reviewed,
        ProposalState.clientApproved, hunapplied, hunversioned, hunrecorded]
  | marginApprove =>
    have hunrecorded := hstaged.unrecorded (.inr hsource)
    have hother := hself rfl
    constructor
    · constructor <;> simp [CommercialRevisionProposal.setState, decisionEvidence,
        ProposalEvidence.onProposal, hunapplied, hunrecorded, hother, hduties.rejection]
    · constructor <;> simp [CommercialRevisionProposal.setState, decisionEvidence,
        ProposalEvidence.onProposal, CommercialApprovalAction.target, ProposalState.reviewed,
        ProposalState.clientApproved, hunapplied, hunversioned, hunrecorded]
  | clientApprove =>
    have hreviewed := hstaged.reviewed (by rw [hsource]; rfl)
    have hother := hself rfl
    have hreviewer : p.reviewDecidedBy ≠ some actorId := by
      simpa [stagesSeparate] using hstages
    constructor
    · constructor <;> simp [CommercialRevisionProposal.setState, decisionEvidence,
        ProposalEvidence.onProposal, hunapplied, hreviewer, hother,
          hduties.rejection, hduties.review]
    · constructor <;> simp [CommercialRevisionProposal.setState, decisionEvidence,
        ProposalEvidence.onProposal, CommercialApprovalAction.target, hunapplied, hunversioned,
        hreviewed]
  | reject =>
    have hother := hself rfl
    constructor
    · exact ⟨hduties.review, hduties.client, by
          simpa [CommercialRevisionProposal.setState, decisionEvidence,
            ProposalEvidence.onProposal] using hother, hduties.application,
        hduties.recorder, hduties.applier⟩
    · constructor <;> simp [CommercialRevisionProposal.setState, decisionEvidence,
        ProposalEvidence.onProposal, CommercialApprovalAction.target, ProposalState.reviewed,
        ProposalState.clientApproved, hunapplied, hunversioned]
  | withdraw =>
    constructor
    · exact ⟨hduties.review, hduties.client, hduties.rejection, hduties.application,
        hduties.recorder, hduties.applier⟩
    · constructor <;> simp [CommercialRevisionProposal.setState, decisionEvidence,
        ProposalEvidence.onProposal, CommercialApprovalAction.target, ProposalState.reviewed,
        ProposalState.clientApproved, hunapplied, hunversioned]

theorem application (h : Proper p) {versionId actorId now : Nat} (hstate : p.state = .approved)
    (hself : actorId ≠ p.requestedBy) (hrecorder : p.clientApprovalRecordedBy ≠ some actorId) :
    Proper (p.setState .applied (.applied versionId actorId now)) := by
  obtain ⟨hduties, hstaged⟩ := h
  have hreviewed := hstaged.reviewed (by rw [hstate]; rfl)
  have happroved := hstaged.clientApproved (by rw [hstate]; rfl)
  constructor
  · refine ⟨hduties.review, hduties.client, hduties.rejection, ?_, hduties.recorder, ?_⟩
    · simpa [CommercialRevisionProposal.setState, ProposalEvidence.onProposal] using hself
    · simpa [CommercialRevisionProposal.setState, ProposalEvidence.onProposal] using hrecorder
  · constructor <;> simp [CommercialRevisionProposal.setState,
      ProposalEvidence.onProposal, hreviewed,
      happroved]

end Proper

/-! ## Rows in order -/

/-- The key by which an assignment is found. -/
def ContractAssignment.key (a : ContractAssignment) : Nat × Nat :=
  (a.engagement.tenantId, a.placementProcessId)

structure ProposalSound (d : PlacementDb) : Prop where
  ids : (d.proposals.map (·.id)).Nodup
  versionIds : (d.rateVersions.map (·.id)).Nodup
  keys : (d.assignments.map ContractAssignment.key).Nodup
  oneOpen : ∀ p ∈ d.proposals, ∀ q ∈ d.proposals, p.state.isOpen = true → q.state.isOpen = true →
    p.tenantId = q.tenantId → p.contractAssignmentId = q.contractAssignmentId → p = q
  proper : ∀ p ∈ d.proposals, Proper p
  assigned : ∀ p ∈ d.proposals, ∃ a ∈ d.assignments, a.id = p.contractAssignmentId ∧
    a.engagement.tenantId = p.tenantId ∧ a.placementProcessId = p.placementProcessId
  applied : ∀ p ∈ d.proposals, p.state = .applied → ∃ v ∈ d.rateVersions, AppliedAs p v
  once : ∀ p ∈ d.proposals, ∀ q ∈ d.proposals, ∀ versionId,
    p.appliedRateVersionId = some versionId →
    q.appliedRateVersionId = some versionId → p = q

theorem proposalSound_empty : ProposalSound .empty where
  ids := nodup_nil
  versionIds := nodup_nil
  keys := nodup_nil
  oneOpen p hp := by cases hp
  proper p hp := by cases hp
  assigned p hp := by cases hp
  applied p hp := by cases hp
  once p hp := by cases hp

/-- The writes beside the proposals. -/
def besideProposals : WriteKind → Bool
  | .insertProposal | .moveProposal => false
  | _ => true

theorem proposals_apply {w : Write} (h : besideProposals w.kind = true) (d : PlacementDb) :
    (w.apply d).proposals = d.proposals := by
  cases w with
  | proposal w =>
    cases w with
    | insert row | update id target evidence => cases h
    | event row => rfl
  | placement w | assignment w | rateVersion w | permanent w | remedy w | offer w | term w =>
    cases w <;> rfl
  | lineage row | outbox event => rfl

variable {d : PlacementDb}

theorem versionIds_write (h : (d.rateVersions.map (·.id)).Nodup) {w : Write}
    (hallowed : w.allowed d = true) : ((w.apply d).rateVersions.map (·.id)).Nodup := by
  cases w with
  | rateVersion w =>
    cases w with
    | insert row =>
      have hfresh : ∀ v ∈ d.rateVersions, v.id ≠ row.id := by
        intro v hv
        have hrow := all_eq_true.mp (Bool.and_eq_true_iff.mp hallowed).2 v hv
        simpa using (Bool.and_eq_true_iff.mp hrow).1
      exact nodup_concat h hfresh
    | close | reopen | cancel => exact nodup_updateWhere (fun _ => rfl) h
  | placement w | assignment w | permanent w | remedy w | offer w | proposal w | term w =>
    cases w <;> exact h
  | lineage row | outbox event => exact h

theorem keys_write (h : (d.assignments.map ContractAssignment.key).Nodup) {w : Write}
    (hallowed : w.allowed d = true) :
      ((w.apply d).assignments.map ContractAssignment.key).Nodup := by
  cases w with
  | assignment w =>
    cases w with
    | insert row =>
      have hfresh : ∀ a ∈ d.assignments, a.key ≠ row.key := by
        intro a ha hkey
        have hrow := (Bool.and_eq_true_iff.mp (all_eq_true.mp hallowed a ha)).2
        obtain ⟨htenant, hplacement⟩ := Prod.mk.inj hkey
        simp [htenant, hplacement] at hrow
      exact nodup_concat h hfresh
    | setEnded id reason endedAt => exact nodup_updateWhere (fun _ => rfl) h
  | placement w | rateVersion w | permanent w | remedy w | offer w | proposal w | term w =>
    cases w <;> exact h
  | lineage row | outbox event => exact h

namespace ProposalSound

variable {d d' : PlacementDb}

section

variable (h : ProposalSound d)

include h

theorem later (hproposals : d'.proposals = d.proposals)
    (hpersists : Persists d d') (hids : (d'.rateVersions.map (·.id)).Nodup)
    (hkeys : (d'.assignments.map ContractAssignment.key).Nodup) : ProposalSound d' where
  ids := hproposals ▸ h.ids
  versionIds := hids
  keys := hkeys
  oneOpen := hproposals ▸ h.oneOpen
  proper := hproposals ▸ h.proper
  assigned p hp := by
    obtain ⟨a, ha, hid, htenant, hplacement⟩ := h.assigned p (hproposals ▸ hp)
    obtain ⟨a', ha', hfixed⟩ := exists_of_prefix_map hpersists.assignments ha
    obtain ⟨hid', hengagement, hplacement'⟩ := ContractAssignment.of_fixed hfixed
    exact ⟨a', ha', hid'.trans hid, hengagement ▸ htenant, hplacement'.trans hplacement⟩
  applied p hp happlied := by
    obtain ⟨v, hv, hof⟩ := h.applied p (hproposals ▸ hp) happlied
    obtain ⟨v', hv', hfixed⟩ := exists_of_prefix_map hpersists.rateVersions hv
    exact ⟨v', hv', hof.of_fixed hfixed⟩
  once := hproposals ▸ h.once

theorem write_beside {w : Write} (hw : besideProposals w.kind = true)
    (hallowed : w.allowed d = true) : ProposalSound (w.apply d) :=
  h.later (proposals_apply hw d) (Persists.write d w) (versionIds_write h.versionIds hallowed)
    (keys_write h.keys hallowed)

theorem writes_beside {ws : List Write}
    (hws : ∀ w ∈ ws, besideProposals w.kind = true) (hadmits : admitsAll ws d = true) :
    ProposalSound (applyAll ws d) ∧ (applyAll ws d).proposals = d.proposals := by
  refine applyAll_induction (I := fun d' => ProposalSound d' ∧
    d'.proposals = d.proposals) ?_ hadmits
    ⟨h, rfl⟩
  rintro w hw d' hallowed ⟨hsound, hsame⟩
  exact ⟨hsound.write_beside (hws w hw) hallowed, (proposals_apply (hws w hw) d').trans hsame⟩

theorem insert {row : CommercialRevisionProposal}
    (hallowed : (ProposalWrite.insert row).allowed d = true) (hopen : row.state.isOpen = true)
    (hproper : Proper row) (hassigned : ∃ a ∈ d.assignments, a.id = row.contractAssignmentId ∧
      a.engagement.tenantId = row.tenantId ∧ a.placementProcessId = row.placementProcessId) :
    ProposalSound ((ProposalWrite.insert row).apply d) := by
  have hrow : ∀ p ∈ d.proposals, p.id ≠ row.id ∧
    (p.state.isOpen = true → p.tenantId = row.tenantId →
      p.contractAssignmentId ≠ row.contractAssignmentId) := by
    intro p hp
    have hall := all_eq_true.mp hallowed p hp
    simp only [hopen, Bool.and_true, Bool.and_eq_true, bne_iff_ne, Bool.not_eq_true',
      Bool.and_eq_false_iff, beq_eq_false_iff_ne] at hall
    refine ⟨hall.1, fun hlive htenant => ?_⟩
    rcases hall.2 with (hclosed | hother) | hother
    · exact absurd hlive (by simp [hclosed])
    · exact absurd htenant hother
    · exact hother
  have hunapplied : row.state ≠ .applied := by
    intro happlied
    rw [happlied] at hopen
    cases hopen
  have hunversioned := (hproper.unapplied hunapplied).2
  exact {
    ids := nodup_concat h.ids fun p hp => (hrow p hp).1
    versionIds := h.versionIds
    keys := h.keys
    oneOpen := by
      intro p hp q hq hlive hlive' htenant hassignment
      rcases mem_append.mp hp with hold | hnew
      · rcases mem_append.mp hq with hold' | hnew'
        · exact h.oneOpen p hold q hold' hlive hlive' htenant hassignment
        · obtain rfl := mem_singleton.mp hnew'
          exact absurd hassignment ((hrow p hold).2 hlive htenant)
      · obtain rfl := mem_singleton.mp hnew
        rcases mem_append.mp hq with hold' | hnew'
        · exact absurd hassignment.symm ((hrow q hold').2 hlive' htenant.symm)
        · exact (mem_singleton.mp hnew').symm
    proper := forall_mem_append.mpr ⟨h.proper, forall_mem_singleton.mpr hproper⟩
    assigned := forall_mem_append.mpr ⟨h.assigned, forall_mem_singleton.mpr hassigned⟩
    applied := forall_mem_append.mpr
      ⟨h.applied, forall_mem_singleton.mpr fun happlied => absurd happlied hunapplied⟩
    once := UniqueIndex.insert h.once fun p _ versionId hversion => by
      cases hunversioned.symm.trans hversion }

theorem update {q : CommercialRevisionProposal} (hq : q ∈ d.proposals)
    {target : ProposalState} {evidence : ProposalEvidence} (hopen : q.state.isOpen = true)
    (hproper : Proper (q.setState target evidence))
    (happlied : target = .applied → ∃ v ∈ d.rateVersions, AppliedAs (q.setState target evidence) v)
    (honce : ∀ versionId, (q.setState target evidence).appliedRateVersionId = some versionId →
      ∀ p ∈ d.proposals, p.appliedRateVersionId ≠ some versionId) :
    ProposalSound ((ProposalWrite.update q.id target evidence).apply d) := by
  have hfixed := Persists.fixed_setState target evidence q
  obtain ⟨hid, htenant, hassignment, hplacement, -⟩ := CommercialRevisionProposal.of_fixed hfixed
  have hmem : ∀ p, p ∈ ((ProposalWrite.update q.id target evidence).apply d).proposals ↔
      p ∈ d.proposals ∧ p.id ≠ q.id ∨ p = q.setState target evidence :=
    fun p => mem_updateWhere_key h.ids hq
  exact {
    ids := nodup_updateWhere (fun p => (CommercialRevisionProposal.of_fixed
      (Persists.fixed_setState target evidence p)).1) h.ids
    versionIds := h.versionIds
    keys := h.keys
    oneOpen := by
      intro p hp p' hp' hlive hlive' hsame hsame'
      rcases (hmem p).mp hp with ⟨hold, hne⟩ | rfl
      · rcases (hmem p').mp hp' with ⟨hold', hne'⟩ | rfl
        · exact h.oneOpen p hold p' hold' hlive hlive' hsame hsame'
        · refine absurd ?_ hne
          rw [h.oneOpen p hold q hq hlive hopen (hsame.trans htenant) (hsame'.trans hassignment)]
      · rcases (hmem p').mp hp' with ⟨hold', hne'⟩ | rfl
        · refine absurd ?_ hne'
          rw [h.oneOpen q hq p' hold' hopen hlive' (htenant.symm.trans hsame)
            (hassignment.symm.trans hsame')]
        · rfl
    proper := by
      intro p hp
      rcases (hmem p).mp hp with ⟨hold, -⟩ | rfl
      · exact h.proper p hold
      · exact hproper
    assigned := by
      intro p hp
      rcases (hmem p).mp hp with ⟨hold, -⟩ | rfl
      · exact h.assigned p hold
      · rw [htenant, hassignment, hplacement]
        exact h.assigned q hq
    applied := by
      intro p hp hstate
      rcases (hmem p).mp hp with ⟨hold, -⟩ | rfl
      · exact h.applied p hold hstate
      · exact happlied hstate
    once := UniqueIndex.update_row
      (f := fun p : CommercialRevisionProposal => p.setState target evidence) h.once h.ids hq
      fun p hp versionId hversion hversion' => absurd hversion' (honce versionId hversion p hp) }

end

end ProposalSound

/-! ## How proposals go on -/

/-- How far a proposal has come. -/
def ProposalState.rank : ProposalState → Nat
  | .draft => 0
  | .pendingReview => 1
  | .pendingClientApproval => 2
  | .approved => 3
  | .applied | .rejected | .withdrawn => 4

theorem rank_lt_of_legal {source target : ProposalState}
    (h : isLegalCommercialProposalTransition source target = true) : source.rank < target.rank := by
  revert h
  cases source <;> cases target <;> decide

/-- The same proposal, as it was or further on. -/
def Since (p q : CommercialRevisionProposal) : Prop :=
  q.fixed = p.fixed ∧ (q = p ∨ p.state.rank < q.state.rank)

theorem Since.refl (p : CommercialRevisionProposal) : Since p p := ⟨rfl, .inl rfl⟩

theorem Since.trans {p q r : CommercialRevisionProposal} (h : Since p q) (h' : Since q r) :
    Since p r := by
  refine ⟨h'.1.trans h.1, ?_⟩
  rcases h.2 with rfl | hlt
  · exact h'.2
  · rcases h'.2 with rfl | hlt'
    · exact .inr hlt
    · exact .inr (Nat.lt_trans hlt hlt')

theorem Since.eq_of_state {p q : CommercialRevisionProposal} (h : Since p q)
    (hstate : q.state = p.state) : q = p := by
  rcases h.2 with rfl | hlt
  · rfl
  · rw [hstate] at hlt
    exact absurd hlt (Nat.lt_irrefl _)

/-- What a commit does to proposals: they go on, and one that is applied by it
comes with one version. -/
structure ProposalsMove (d d' : PlacementDb) : Prop where
  since : ∀ p ∈ d.proposals, ∃ q ∈ d'.proposals, Since p q
  applied : ∀ p ∈ d'.proposals, p.state = .applied → p ∉ d.proposals →
    ∃ v, d'.rateVersions.map (·.fixed) = d.rateVersions.map (·.fixed) ++ [v.fixed] ∧ AppliedAs p v

namespace ProposalsMove

variable {d d' : PlacementDb}

theorem of_eq (h : d'.proposals = d.proposals) : ProposalsMove d d' where
  since p hp := ⟨p, h.symm ▸ hp, Since.refl p⟩
  applied _ hp _ hnew := absurd (h ▸ hp) hnew

theorem insert {row : CommercialRevisionProposal} (h : d'.proposals = d.proposals ++ [row])
    (hrow : row.state ≠ .applied) : ProposalsMove d d' where
  since p hp := ⟨p, h.symm ▸ mem_append_left _ hp, Since.refl p⟩
  applied p hp happlied hnew := by
    rcases mem_append.mp (h ▸ hp) with hold | hrow'
    · exact absurd hold hnew
    · obtain rfl := mem_singleton.mp hrow'
      exact absurd happlied hrow

theorem update {q : CommercialRevisionProposal} {target : ProposalState}
    {evidence : ProposalEvidence}
    (hids : (d.proposals.map (·.id)).Nodup) (hq : q ∈ d.proposals)
    (hedge : isLegalCommercialProposalTransition q.state target = true)
    (h : d'.proposals = updateWhere (·.id == q.id) (·.setState target evidence) d.proposals)
    (happlied : target = .applied → ∃ v,
      d'.rateVersions.map (·.fixed) = d.rateVersions.map (·.fixed) ++ [v.fixed] ∧
        AppliedAs (q.setState target evidence) v) : ProposalsMove d d' where
  since p hp := by
    by_cases hid : p.id = q.id
    · obtain rfl := inj_on_of_nodup_map hids hp hq hid
      refine ⟨p.setState target evidence, ?_, Persists.fixed_setState target evidence p,
        .inr (rank_lt_of_legal hedge)⟩
      exact h.symm ▸ (mem_updateWhere_key hids hq).mpr (.inr rfl)
    · exact ⟨p, h.symm ▸ (mem_updateWhere_key hids hq).mpr (.inl ⟨hp, hid⟩), Since.refl p⟩
  applied p hp hstate hnew := by
    rcases (mem_updateWhere_key hids hq).mp (h ▸ hp) with ⟨hold, -⟩ | rfl
    · exact absurd hold hnew
    · exact happlied hstate

end ProposalsMove

/-! ## What was loaded -/

/-- The assignment of a placement, among the rows. -/
def AssignmentAt (t placementProcessId : Nat) (a : ContractAssignment) (d : PlacementDb) : Prop :=
  a.engagement.tenantId = t ∧ a.placementProcessId = placementProcessId ∧
    ∃ a' ∈ d.assignments, a'.fixed = a.fixed

/-- A proposal that was loaded has gone on since; an assignment is there. -/
def ApprovalLoaded : placementStore.Check
  | .read (.proposal t pid id), some p, d =>
      p.tenantId = t ∧ p.placementProcessId = pid ∧ p.id = id ∧ ∃ q ∈ d.proposals, Since p q
  | .read (.assignment t pid), some a, d => AssignmentAt t pid a d
  | .lockRead _ (.assignment t pid), some a, d => AssignmentAt t pid a d
  | _, _, _ => True

theorem assignmentAt_of_find {t pid : Nat} {a : ContractAssignment}
    (h : d.answer (.assignment t pid) = some a) : AssignmentAt t pid a d := by
  have hfind : d.assignments.find? _ = some a := h
  have hkey := find?_some hfind
  simp only [Bool.and_eq_true, beq_iff_eq] at hkey
  exact ⟨hkey.1, hkey.2, a, mem_of_find?_eq_some hfind, rfl⟩

theorem AssignmentAt.keep {t pid : Nat} {a : ContractAssignment} {d d' : PlacementDb}
    (h : AssignmentAt t pid a d) (hlater : Persists d d') : AssignmentAt t pid a d' := by
  obtain ⟨htenant, hplacement, x, hx, hfixed⟩ := h
  obtain ⟨x', hx', hfixed'⟩ := exists_of_prefix_map hlater.assignments hx
  exact ⟨htenant, hplacement, x', hx', hfixed'.trans hfixed⟩

theorem approvalLoaded_answer (s : PlacementStmt) (d : PlacementDb) :
    ApprovalLoaded s (placementStore.answer s d) d := by
  cases s with
  | write w | updateOffer u => trivial
  | read q =>
    cases q with
    | proposal t pid id =>
      show ApprovalLoaded (.read (.proposal t pid id)) (d.answer (.proposal t pid id)) d
      cases hfound : d.answer (.proposal t pid id) with
      | none => trivial
      | some p =>
        have hfind : d.proposals.find? _ = some p := hfound
        have hkey := find?_some hfind
        simp only [Bool.and_eq_true, beq_iff_eq, and_assoc] at hkey
        exact ⟨hkey.1, hkey.2.1, hkey.2.2, p, mem_of_find?_eq_some hfind, Since.refl p⟩
    | assignment t pid =>
      show ApprovalLoaded (.read (.assignment t pid)) (d.answer (.assignment t pid)) d
      cases hfound : d.answer (.assignment t pid) with
      | none => trivial
      | some a => exact assignmentAt_of_find hfound
    | _ => trivial
  | lockRead key q =>
    cases q with
    | assignment t pid =>
      show ApprovalLoaded (.lockRead key (.assignment t pid)) (d.answer (.assignment t pid)) d
      cases hfound : d.answer (.assignment t pid) with
      | none => trivial
      | some a => exact assignmentAt_of_find hfound
    | _ => trivial

theorem approvalLoaded_keep {s : PlacementStmt} {a : PlacementStmt.Ans s} {d d' : PlacementDb}
    (hlater : Persists d d') (hmove : ProposalsMove d d') (h : ApprovalLoaded s a d) :
    ApprovalLoaded s a d' := by
  cases s with
  | write w | updateOffer u => trivial
  | read q =>
    cases q with
    | proposal t pid id =>
      cases a with
      | none => trivial
      | some p =>
        obtain ⟨htenant, hplacement, hid, q, hq, hsince⟩ := h
        obtain ⟨q', hq', hsince'⟩ := hmove.since q hq
        exact ⟨htenant, hplacement, hid, q', hq', hsince.trans hsince'⟩
    | assignment t pid =>
      cases a with
      | none => trivial
      | some a => exact AssignmentAt.keep h hlater
    | _ => trivial
  | lockRead key q =>
    cases q with
    | assignment t pid =>
      cases a with
      | none => trivial
      | some a => exact AssignmentAt.keep h hlater
    | _ => trivial

/-! ## Operations -/

theorem isOpen_of_legal {source target : ProposalState}
    (h : isLegalCommercialProposalTransition source target = true) : source.isOpen = true := by
  cases source with
  | draft | pendingReview | pendingClientApproval | approved => rfl
  | applied | rejected | withdrawn => cases h

theorem governing_of_legal {source : ProposalState} {action : CommercialApprovalAction}
    (h : isLegalCommercialProposalTransition source action.target = true) :
    governingCommercialProposalAction source action.target = some action := by
  revert h
  cases action <;> cases source <;> decide

/-- What a decision does. -/
inductive Decided (input : DecideInput) (now : Nat) (d d' : PlacementDb) : Prop
  | replayed (h : d' = d)
  | moved (p : CommercialRevisionProposal) (hp : p ∈ d.proposals) (hid :
      p.id = input.ref.proposalId)
      (happly : input.action ≠ .apply) (hself : input.actorId ≠ p.requestedBy)
      (hmoved : p.setState input.action.target (decisionEvidence input.action input.actorId) ∈
        d'.proposals) (hrates : d'.rateVersions = d.rateVersions)
  | applied (p : CommercialRevisionProposal) (v : AssignmentRateVersion) (hp : p ∈ d.proposals)
      (hid : p.id = input.ref.proposalId) (hself : input.actorId ≠ p.requestedBy)
      (hstate : p.state = .approved)
      (happlied : p.setState .applied (.applied v.id input.actorId now) ∈ d'.proposals)
      (happended : d'.rateVersions.map (·.fixed) = d.rateVersions.map (·.fixed) ++ [v.fixed])
      (has : AppliedAs (p.setState .applied (.applied v.id input.actorId now)) v)

namespace ProposalSound

variable {d : PlacementDb} {ok : placementStore.Check}

section

variable (h : ProposalSound d)

include h

theorem keeps_beside {op : PlacementOp}
    (hkinds : op.kinds.all besideProposals = true) :
    (placementProgram op).wp ok (fun _ d' => ProposalSound d' ∧ ProposalsMove d d') d := by
  refine Tx.wp_mono (wp_of_kinds (I := fun d' => ProposalSound d' ∧
    d'.proposals = d.proposals) ?_ ?_
    ⟨h, rfl⟩) fun _ d' hd => ⟨hd.1, .of_eq hd.2⟩
  · rintro w d' hw hallowed ⟨hsound, hsame⟩
    have hbeside := all_eq_true.mp hkinds _ hw
    exact ⟨hsound.write_beside hbeside hallowed, (proposals_apply hbeside d').trans hsame⟩
  · rintro u d' _ _ ⟨hsound, hsame⟩
    exact ⟨hsound.later rfl (Persists.updateOffer d' u) hsound.versionIds hsound.keys, hsame⟩

theorem legal_of_allowed {q : CommercialRevisionProposal} (hq : q ∈ d.proposals)
    {id : Nat} (hid : q.id = id) {target : ProposalState} (evidence : ProposalEvidence)
    (hallowed : (ProposalWrite.update id target evidence).allowed d = true) :
    isLegalCommercialProposalTransition q.state target = true := by
  subst hid
  have hfind : d.proposals.find? (fun p => p.id == q.id) = some q := find?_key_eq_some h.ids hq
  rw [ProposalWrite.allowed, hfind] at hallowed
  exact hallowed

theorem record (change : Entry ProposalState)
    (action : Option CommercialApprovalAction) (actorId : Nat) (versionId : Option Nat) :
    ProposalSound (applyAll (proposalRecord change action actorId versionId) d) :=
  (h.writes_beside (by simp [proposalRecord, Write.kind, OutboxEvent.isChange, besideProposals])
    rfl).1

theorem propose (hok : ∀ s a d, ok s a d → Loads s → ApprovalLoaded s a d)
    (input : ProposeInput) :
    (createCommercialRevisionProposal input).wp ok
      (fun _ d' => ProposalSound d' ∧ ProposalsMove d d') d := by
  refine wp_createCommercialRevisionProposal fun a reference id hread => ?_
  intro ws hadmits
  obtain ⟨htenant, hplacement, a', ha', hfixed⟩ := hok _ _ _ hread rfl
  obtain ⟨hid, hengagement, hplacement'⟩ := ContractAssignment.of_fixed hfixed
  have hallowed : (ProposalWrite.insert (input.row id a reference)).allowed d = true :=
    ((admitsAll_cons _ _ _).mp hadmits).1
  have hinserted := h.insert hallowed rfl (Proper.draft input id a reference)
    ⟨a', ha', hid, hengagement ▸ htenant, hplacement'.trans hplacement⟩
  have hdraft : (input.row id a reference).state ≠ .applied := by
    intro happlied
    cases happlied
  exact ⟨hinserted.record _ _ _ _, ProposalsMove.insert rfl hdraft⟩

/-- A step that is no application, and is committed: it was taken on the row
that was loaded, as far as it matters. -/
theorem moved {p q : CommercialRevisionProposal} (hq : q ∈ d.proposals)
    (hsince : Since p q) {action : CommercialApprovalAction} {actorId :
      Nat} (happly : action ≠ .apply)
    (hgoverned : governingCommercialProposalAction p.state action.target = some action)
    (hself : action.isAuthority = true → actorId ≠ p.requestedBy)
    (hstages : stagesSeparate p action actorId = true) {evidence : ProposalEvidence}
    (hevidence : evidence = decisionEvidence action actorId)
    (hadmits : admitsAll (proposalWrites p action evidence actorId) d = true) :
    ProposalSound (applyAll (proposalWrites p action evidence actorId) d) ∧
      ProposalsMove d (applyAll (proposalWrites p action evidence actorId) d) ∧
      q.setState action.target evidence ∈
        (applyAll (proposalWrites p action evidence actorId) d).proposals := by
  obtain ⟨hid, -, -, -, hrequester⟩ := CommercialRevisionProposal.of_fixed hsince.1
  have hallowed := ((admitsAll_cons _ _ _).mp hadmits).1
  have hedge := h.legal_of_allowed hq hid evidence hallowed
  have hgoverned' := governing_of_legal hedge
  -- only the approval of the client looks at an earlier step
  have hstages' : stagesSeparate q action actorId = true := by
    by_cases hclient : action = .clientApprove
    · subst hclient
      have hsource : q.state = p.state :=
        (startsFrom_of_governing hgoverned').trans (startsFrom_of_governing hgoverned).symm
      exact hsince.eq_of_state hsource ▸ hstages
    · simp [stagesSeparate, hclient, happly]
  have hproper := (h.proper q hq).move hgoverned' happly (hrequester.symm ▸ hself) hstages'
  have hunapplied : action.target ≠ .applied := by
    revert happly
    cases action <;> decide
  have hstate : (q.setState action.target evidence).state ≠ .applied := hunapplied
  rw [← hevidence] at hproper
  have hupdated := h.update hq (isOpen_of_legal hedge) hproper
    (fun happlied => absurd happlied hunapplied) fun versionId hversion => by
      rw [(hproper.unapplied hstate).2] at hversion
      cases hversion
  rw [hid] at hupdated
  have hrows : (applyAll (proposalWrites p action evidence actorId) d).proposals =
      updateWhere (·.id == q.id) (·.setState action.target evidence) d.proposals := by
    rw [hid]
    rfl
  refine ⟨hupdated.record _ _ _ _, ProposalsMove.update h.ids hq hedge hrows
    fun happlied => absurd happlied hunapplied, ?_⟩
  · have hmem : q.setState action.target evidence ∈
        updateWhere (·.id == q.id) (·.setState action.target evidence) d.proposals :=
      (mem_updateWhere_key h.ids hq).mpr (.inr rfl)
    exact hrows.symm ▸ hmem

theorem transition (hok : ∀ s a d, ok s a d → Loads s → ApprovalLoaded s a d)
    (ref : ProposalRef) (withdraw : Bool) (actorId : Nat) :
    (transitionCommercialRevisionProposal ref withdraw actorId).wp ok
      (fun _ d' => ProposalSound d' ∧ ProposalsMove d d') d := by
  refine wp_transitionCommercialRevisionProposal fun p => ?_
  intro action hread hgoverned hadmits
  obtain ⟨-, -, -, q, hq, hsince⟩ := hok _ _ _ hread rfl
  have haction : action = .withdraw ∨ action = .submit := by
    cases withdraw
    · exact .inr rfl
    · exact .inl rfl
  have happly : action ≠ .apply := by rcases haction with h | h <;> simp [h]
  have hself : action.isAuthority = true → actorId ≠ p.requestedBy := by
    rcases haction with h | h <;> simp [h, CommercialApprovalAction.isAuthority]
  have hstages : stagesSeparate p action actorId = true := by
    rcases haction with h | h <;> simp [h, stagesSeparate]
  have hevidence : ProposalEvidence.none = decisionEvidence action actorId := by
    rcases haction with h | h <;> simp [h, decisionEvidence]
  obtain ⟨hsound, hmove, -⟩ := h.moved hq hsince happly hgoverned hself hstages hevidence hadmits
  exact ⟨hsound, hmove⟩

end

/-- The rows after an application, but for its events. -/
def appliedRows (predecessor successor : AssignmentRateVersion) (p : CommercialRevisionProposal)
    (actorId now : Nat) (d : PlacementDb) : PlacementDb :=
  (ProposalWrite.update p.id .applied (.applied successor.id actorId now)).apply
    (applyAll (appendWrites predecessor successor) d)

theorem map_appendWrites {β : Type} {g : AssignmentRateVersion → β}
    (hg : ∀ e v, g (AssignmentRateVersion.endAt e v) = g v)
    (predecessor successor : AssignmentRateVersion) (d : PlacementDb) :
    (applyAll (appendWrites predecessor successor) d).rateVersions.map g =
      d.rateVersions.map g ++ [g successor] := by
  show (updateWhere (·.id == predecessor.id) (·.endAt (some successor.effectiveFrom))
    d.rateVersions ++
    [successor]).map g = _
  rw [map_append, map_updateWhere (f := (·.endAt (some successor.effectiveFrom))) g (hg _)]
  rfl

/-- An application that is committed: the proposal was still as it had been
loaded, and gets the version that is appended. -/
theorem application (h : ProposalSound d) {p q : CommercialRevisionProposal} (hq : q ∈ d.proposals)
    (hsince : Since p q) (hstate : p.state = .approved) {a : ContractAssignment}
    (ha : AssignmentAt p.tenantId p.placementProcessId a d) {predecessor : AssignmentRateVersion}
    {versionId actorId now : Nat} (hself : actorId ≠ p.requestedBy)
    (hrecorder : p.clientApprovalRecordedBy ≠ some actorId) {successor : AssignmentRateVersion}
    (hsuccessor : successor = rateVersionRow versionId a p.proposed
      (p.proposedEffectiveFrom.getD now)
      actorId (some p.reason))
    (hadmits : admitsAll (appendWrites predecessor successor ++
      appliedWrites p versionId actorId now)
      d = true) :
    q = p ∧ ProposalSound (appliedRows predecessor successor p actorId now d) ∧
      ProposalsMove d (appliedRows predecessor successor p actorId now d) ∧
      AppliedAs (p.setState .applied (.applied successor.id actorId now)) successor := by
  obtain ⟨happend, happlied⟩ := admitsAll_append.mp hadmits
  obtain ⟨hrates, hproposals⟩ := h.writes_beside
    (by simp [appendWrites, Write.kind, OutboxEvent.isChange, besideProposals]) happend
  have hallowed := ((admitsAll_cons _ _ _).mp happlied).1
  obtain ⟨hid, -, -, -, -⟩ := CommercialRevisionProposal.of_fixed hsince.1
  have hedge := hrates.legal_of_allowed (hproposals.symm ▸ hq) hid
    (.applied versionId actorId now) hallowed
  obtain rfl : q = p := by
    refine hsince.eq_of_state ?_
    rw [hstate]
    revert hedge
    cases q.state <;> decide
  subst hsuccessor
  have happended := map_appendWrites (g := (·.fixed)) (fun _ _ => rfl) predecessor
    (rateVersionRow versionId a q.proposed (q.proposedEffectiveFrom.getD now)
      actorId (some q.reason)) d
  have hfresh : ∀ v ∈ d.rateVersions, v.id ≠ versionId := by
    have hids := hrates.versionIds
    rw [map_appendWrites (g := (·.id)) (fun _ _ => rfl)] at hids
    intro v hv
    exact (nodup_append.mp hids).2.2 v.id (mem_map_of_mem hv) versionId mem_cons_self
  have has : AppliedAs (q.setState .applied (.applied versionId actorId now))
    (rateVersionRow versionId a
      q.proposed (q.proposedEffectiveFrom.getD now) actorId (some q.reason)) := by
    obtain ⟨htenant, hplacement, a', ha', hfixed⟩ := ha
    obtain ⟨haid, hengagement, hplacement'⟩ := ContractAssignment.of_fixed hfixed
    -- one assignment for each placement
    obtain ⟨a₁, ha₁, hid₁, htenant₁, hplacement₁⟩ := h.assigned q hq
    have hkey : a'.key = a₁.key := by
      rw [ContractAssignment.key, ContractAssignment.key, hengagement, htenant,
        hplacement', hplacement,
        htenant₁, hplacement₁]
    obtain rfl := inj_on_of_nodup_map h.keys ha' ha₁ hkey
    refine ⟨rfl, htenant, haid.symm.trans hid₁, rfl, ?_⟩
    show (q.proposedEffectiveFrom <|> some now) = some (q.proposedEffectiveFrom.getD now)
    cases q.proposedEffectiveFrom <;> rfl
  have hproper : Proper (q.setState .applied (.applied versionId actorId now)) :=
    (h.proper q hq).application hstate hself hrecorder
  have hupdated := hrates.update (hproposals.symm ▸ hq) (isOpen_of_legal hedge) hproper
    (fun _ => ⟨_, mem_append_right _ mem_cons_self, has⟩) fun v hv p hp hversion => by
      obtain rfl := Option.some.inj hv
      rw [hproposals] at hp
      have hstate' := (h.proper p hp).staged.version.mp (by rw [hversion]; rfl)
      obtain ⟨x, hx, hof⟩ := h.applied p hp hstate'
      exact hfresh x hx (Option.some.inj (hof.version.symm.trans hversion))
  refine ⟨rfl, hupdated, ?_, has⟩
  have hrows : (appliedRows predecessor (rateVersionRow versionId a q.proposed
      (q.proposedEffectiveFrom.getD now) actorId (some q.reason)) q actorId now d).proposals =
        updateWhere (·.id == q.id)
          (·.setState .applied (.applied versionId actorId now)) d.proposals := by
    show updateWhere _ _ (applyAll _ d).proposals = _
    rw [hproposals]
    rfl
  exact ProposalsMove.update h.ids hq hedge hrows fun _ => ⟨_, happended, has⟩

theorem decide (h : ProposalSound d) (hok : ∀ s a d, ok s a d → Loads s → ApprovalLoaded s a d)
    (input : DecideInput) (now : Nat) :
    (decideCommercialRevisionProposal input now).wp ok (fun _ d' =>
      (ProposalSound d' ∧ ProposalsMove d d') ∧ Decided input now d d') d := by
  refine wp_decideCommercialRevisionProposal ?_ ⟨⟨h, .of_eq rfl⟩, .replayed rfl⟩ ?_
  · intro p hread hgoverned hauthority happly hself hstages ws hadmits
    obtain ⟨-, -, hpid, q, hq, hsince⟩ := hok _ _ _ hread rfl
    obtain ⟨hid, -, -, -, hrequester⟩ := CommercialRevisionProposal.of_fixed hsince.1
    obtain ⟨hsound, hmove, hmem⟩ := h.moved hq hsince happly hgoverned (fun _ =>
      hself) hstages rfl hadmits
    exact ⟨⟨hsound, hmove⟩, .moved q hq (hid.trans hpid) happly (hrequester.symm ▸ hself) hmem rfl⟩
  · intro p found a predecessor versionId hread _ hstate hself hrecorder _ _ _ hlocked _ _ tNew _
      successor ws hadmits
    obtain ⟨htenant, -, hpid, q, hq, hsince⟩ := hok _ _ _ hread rfl
    have ha : AssignmentAt input.ref.tenantId p.placementProcessId a d := hok _ _ _ hlocked rfl
    obtain ⟨rfl, hsound, hmove, has⟩ :=
      h.application hq hsince hstate (htenant.symm ▸ ha) hself hrecorder
      rfl hadmits
    have hrows : applyAll ws d =
      applyAll (proposalRecord ⟨q.id, some .approved, .applied⟩ (some .apply)
        input.actorId (some versionId)) (appliedRows predecessor successor q
          input.actorId now d) := by
      show applyAll (appendWrites predecessor successor ++ appliedWrites q versionId
        input.actorId now) d = _
      rw [applyAll_append]
      rfl
    rw [hrows]
    have hmem : q.setState .applied (.applied versionId input.actorId now) ∈
        (appliedRows predecessor successor q input.actorId now d).proposals :=
      mem_updateWhere_of_pos (p := (·.id == q.id))
        (f := (·.setState .applied (.applied versionId input.actorId now)))
          hq (beq_self_eq_true q.id)
    exact ⟨⟨hsound.record _ _ _ _, ⟨hmove.since, hmove.applied⟩⟩,
      .applied q successor hq hpid hself hstate
      hmem (map_appendWrites (fun _ _ => rfl) _ _ _) has⟩

end ProposalSound

theorem approvals_placementProgram {ok : placementStore.Check} (op : PlacementOp)
    (h : ProposalSound d) (hok : ∀ s a d, ok s a d → Loads s → ApprovalLoaded s a d) :
    (placementProgram op).wp ok (fun _ d' => ProposalSound d' ∧ ProposalsMove d d') d := by
  cases op with
  | propose input => exact wp_giving (h.propose hok input)
  | moveProposal ref withdraw actorId => exact wp_giving (h.transition hok ref withdraw actorId)
  | decideProposal input now =>
    exact wp_giving (Tx.wp_mono (h.decide hok input now) fun _ _ hd => hd.1)
  | _ => exact h.keeps_beside (by rfl)

/-! ## Runs -/

def approvalDiscipline : Discipline placementProgram where
  Allowed _ := True
  Inv := ProposalSound
  Evolves _ d d' := ProposalsMove d d' ∧ Persists d d'
  cond _ _ _ := True
  parts := .none placementStore
  held _ _ _ := True
  pins := Parts.pins_none
  quiet := Reads
  effect_quiet _ d hs := effect_of_reads hs d
  load := Loads
  early := ApprovalLoaded
  loadsFirst op _ := loadsFirst_placementProgram op
  early_answer s d _ _ := approvalLoaded_answer s d
  early_keep _ _ _ _ _ _ _ hlater h := approvalLoaded_keep hlater.2 hlater.1 h
  keeps op d _ hd := by
    have hmove : (placementProgram op).wp
        (fun s a d => True ∧ True ∧ (Loads s → ApprovalLoaded s a d))
        (fun _ d' => ProposalSound d' ∧ ProposalsMove d d') d :=
      approvals_placementProgram op hd fun _ _ _ hok => hok.2.2
    exact Tx.wp_mono (Tx.wp_and hmove (Persists.program _ op d)) fun _ _ h => ⟨h.1.1, h.1.2, h.2⟩

/-- Of every assignment one proposal is open at most; a proposal is applied if
one rate version is its own, with its terms and instant; and its steps were
taken by others. -/
structure AppliedOnce (d : PlacementDb) : Prop where
  oneOpen : ∀ t a, d.proposals.countP (fun p =>
    p.tenantId == t && p.contractAssignmentId == a && p.state.isOpen) ≤ 1
  applied : ∀ p ∈ d.proposals, p.state = .applied ↔ ∃! v, v ∈ d.rateVersions ∧ AppliedAs p v
  once : ∀ p ∈ d.proposals, ∀ q ∈ d.proposals, ∀ v, AppliedAs p v → AppliedAs q v → p = q
  proper : ∀ p ∈ d.proposals, Proper p

theorem ProposalSound.appliedOnce (h : ProposalSound d) : AppliedOnce d where
  oneOpen t a := by
    refine countP_le_one h.ids fun p hp q hq hpopen hqopen => ?_
    simp only [Bool.and_eq_true, beq_iff_eq, and_assoc] at hpopen hqopen
    obtain ⟨htenant, hassignment, hopen⟩ := hpopen
    obtain ⟨htenant', hassignment', hopen'⟩ := hqopen
    exact h.oneOpen p hp q hq hopen hopen' (htenant.trans htenant'.symm)
      (hassignment.trans hassignment'.symm)
  applied p hp := by
    constructor
    · intro happlied
      obtain ⟨v, hv, hof⟩ := h.applied p hp happlied
      refine ⟨v, ⟨hv, hof⟩, ?_⟩
      rintro x ⟨hx, hof'⟩
      exact inj_on_of_nodup_map h.versionIds hx hv
        (Option.some.inj (hof'.version.symm.trans hof.version))
    · rintro ⟨v, ⟨-, hof⟩, -⟩
      exact (h.proper p hp).staged.version.mp (by rw [hof.version]; rfl)
  once p hp q hq v hof hof' := h.once p hp q hq v.id hof.version hof'.version
  proper := h.proper

/-- What a move of the database does to the proposals. -/
structure ApprovalMove (w : World placementStore PlacementOutcome) (m : Move PlacementOp)
    (w' : World placementStore PlacementOutcome) : Prop where
  /-- Without a result nothing is changed. -/
  failed : (∀ i f, m = .commit i → w.flights[i]? = some f → f.result = none) → w'.db = w.db
  /-- A proposal is applied with one version, which is appended. -/
  applied : ∀ p ∈ w'.db.proposals, p.state = .applied → p ∉ w.db.proposals →
    ∃ v, w'.db.rateVersions.map (·.fixed) = w.db.rateVersions.map (·.fixed) ++ [v.fixed] ∧
      AppliedAs p v
  decided : ∀ i f input now, m = .commit i → w.flights[i]? = some f →
    Leads (placementProgram (.decideProposal input now)) f.trace f.rest →
      Decided input now w.db w'.db

theorem approvalMove_of_step {w w' : World placementStore PlacementOutcome} {m : Move PlacementOp}
    (hw : approvalDiscipline.Sound w) (h : approvalDiscipline.Step w m w') :
      ApprovalMove w m w' where
  failed hfailed := by
    rcases World.step_cases h.1 with ⟨hdb, -⟩ | ⟨i, f, out, hm, hf, hrest, -⟩
    · exact hdb
    · have hresult := hfailed i f hm hf
      rw [Flight.result, hrest] at hresult
      cases hresult
  applied := by
    rcases hw.evolves h with hdb | ⟨out, hmove, -⟩
    · intro p hp _ hnew
      exact absurd (hdb ▸ hp) hnew
    · exact hmove.applied
  decided := by
    rintro i f input now rfl hf hleads
    have hpost := hw.commit_op (P := fun d' => (ProposalSound d' ∧ ProposalsMove w.db d') ∧
      Decided input now w.db d') h hf trivial hleads
      (wp_giving (hw.inv.decide (fun _ _ _ hok => hok.2.2) input now))
    exact hpost.2

/-- **Commercial changes.** In every run, in every state that is committed, the
proposals are in order; and every move of the database applies a proposal with
one version, decides as another than the requester, or leaves it as it is. -/
theorem changes_apply_once {moves : List (Move PlacementOp)}
    {w : World placementStore PlacementOutcome}
    (hrun : Run (World.Step placementProgram) (World.quiet .empty) moves w) :
    AppliedOnce w.db ∧ ∀ m w', World.Step placementProgram w m w' → ApprovalMove w m w' := by
  have hstep : ∀ w m w', World.Step placementProgram w m w' → approvalDiscipline.Step w m w' :=
    fun _ _ _ => Discipline.step_of_forall (fun _ _ _ => trivial) fun _ => trivial
  have hw := (Discipline.sound_quiet (D := approvalDiscipline) proposalSound_empty).run
    (hrun.mono hstep)
  exact ⟨hw.inv.appliedOnce, fun m w' h => approvalMove_of_step hw (hstep w m w' h)⟩

def firstProposal : ProposalRef := ⟨1, 202, 402⟩

def proposeFirst : PlacementOp :=
  .propose ⟨1, 202, ⟨60, 95, js "USD", js "HOURLY"⟩, none, js "RAISE", 7⟩

def decideFirst (action : CommercialApprovalAction) (actorId now : Nat) : PlacementOp :=
  .decideProposal ⟨firstProposal, action, actorId, true⟩ now

/-- User 7 asks for a raise, 8 approves the margin, 9 records the approval of
the client, and 8 applies it: only the commit is left. -/
def raisedInTurn : List (Move PlacementOp) :=
  oneAttempt ++ World.inTurn (moveFirstPlacement .readyToStart) 0 4 ++
    World.inTurn startFirstContract 299 9 ++ World.inTurn proposeFirst 400 6 ++
    World.inTurn (.moveProposal firstProposal false 7) 410 4 ++
    World.inTurn (decideFirst .marginApprove 8 40) 420 4 ++
    World.inTurn (decideFirst .clientApprove 9 41) 430 4 ++
    [.start (decideFirst .apply 8 50)] ++ World.advances 0 440 12

theorem changes_apply_once_in_turn : ∃ w w' : World placementStore PlacementOutcome,
    Run (World.Step placementProgram) (World.quiet .empty) raisedInTurn w ∧
      World.Step placementProgram w (.commit 0) w' ∧
      w'.db.proposals.map (·.appliedRateVersionId) = [some 445] ∧
      w'.db.rateVersions.map (·.window) = [⟨9, some 50⟩, ⟨50, none⟩] ∧
      AppliedOnce w.db ∧ ApprovalMove w (.commit 0) w' := by
  obtain ⟨w, hrun, hp⟩ := World.run_of_moves placementProgram (World.quiet .empty) raisedInTurn
    (fun w : World placementStore PlacementOutcome => (w.next placementProgram (.commit 0)).any
      fun w' : World placementStore PlacementOutcome =>
        decide (w'.db.proposals.map (·.appliedRateVersionId) = [some 445] ∧
          w'.db.rateVersions.map (·.window) = [⟨9, some 50⟩, ⟨50, none⟩])) (by decide +kernel)
  obtain ⟨w', hstep, hw'⟩ := (Option.any_eq_true _ _).mp hp
  obtain ⟨hversion, hwindows⟩ := of_decide_eq_true hw'
  obtain ⟨honce, hmoves⟩ := changes_apply_once hrun
  exact ⟨w, w', hrun, hstep, hversion, hwindows, honce, hmoves _ _ hstep⟩

end AramoPlatform.Placement
