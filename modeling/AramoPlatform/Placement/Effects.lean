import AramoPlatform.Placement.Operations

/-!
# What the operations do

One rule for each operation: whatever is to hold at its end holds if it holds
of every list of writes that the operation may end with. The hypotheses of a
rule are what the answers said, as far as `ok` still vouches for them, and what
the checks of the operation and of the schema let pass.
-/

namespace AramoPlatform.Placement

open Lib

namespace PlacementTx

variable {ok : placementStore.Check} {d : PlacementDb}

/-! ## Reads -/

/-- Statements that write nothing. -/
def Reads : PlacementStmt → Prop
  | .read _ | .lockRead _ _ => True
  | _ => False

theorem effect_of_reads {s : PlacementStmt} (h : Reads s) (d : PlacementDb) :
    placementStore.effect s d = d := by
  cases s with
  | read q | lockRead key q => rfl
  | write w | updateOffer u => cases h

theorem wp_of_reads {α : Type} {Q : α → PlacementDb → Prop} {t : PlacementTx α} (ht : t.Only Reads)
    (hQ : ∀ a, Q a d) : t.wp ok Q d := by
  refine Tx.wp_mono (Tx.wp_of_only (I := fun d' => d' = d) ht ?_ rfl) ?_
  · intro s a d' hs _ _ hd
    exact (effect_of_reads hs d').trans hd
  · rintro a d' rfl
    exact hQ a

/-! ## Rules for a step -/

section Steps

variable {α β : Type} {Q : β → PlacementDb → Prop}

theorem wp_bind_read {q : Query} {f : q.Rows → PlacementTx β}
    (h : ∀ rows, ok (.read q) rows d → (f rows).wp ok Q d) : ((read q).bind f).wp ok Q d :=
  fun rows hrows _ => h rows hrows

theorem wp_bind_lockRead {key : RowKey} {q : Query} {f : q.Rows → PlacementTx β}
    (h : ∀ rows, ok (.lockRead key q) rows d → (f rows).wp ok Q d) :
    ((lockRead key q).bind f).wp ok Q d :=
  fun rows hrows _ => h rows hrows

theorem wp_bind_updateOffer {u : OfferUpdate} {f : Bool → PlacementTx β}
    (h : ∀ hit, ok (.updateOffer u) hit d → u.allowed d = true → (f hit).wp ok Q (u.apply d)) :
    ((updateOffer u).bind f).wp ok Q d :=
  h

theorem wp_bind_require {cond : Bool} {e : PlacementError} {f : Unit → PlacementTx β}
    (h : cond = true → (f ()).wp ok Q d) : ((require cond e).bind f).wp ok Q d := by
  cases cond with
  | false => trivial
  | true => exact h rfl

theorem wp_bind_newId {f : Nat → PlacementTx β} (h : ∀ id, (f id).wp ok Q d) :
    (newId.bind f).wp ok Q d :=
  h

theorem wp_bind_orThrow {found : Option α} {e : PlacementError} {f : α → PlacementTx β}
    (h : ∀ a, found = some a → (f a).wp ok Q d) : ((orThrow found e).bind f).wp ok Q d := by
  cases found with
  | none => trivial
  | some a => exact h a rfl

theorem wp_bind_of_reads {t : PlacementTx α} {f : α → PlacementTx β} (ht : t.Only Reads)
    (h : ∀ a, (f a).wp ok Q d) : (t.bind f).wp ok Q d := by
  rw [Tx.wp_bind]
  exact wp_of_reads ht h

theorem wp_bind_writeAll {ws : List Write} {f : Unit → PlacementTx β}
    (h : admitsAll ws d = true → (f ()).wp ok Q (applyAll ws d)) :
    ((writeAll ws).bind f).wp ok Q d := by
  rw [Tx.wp_bind]
  exact wp_writeAll h

end Steps

/-! ## Statements of a program -/

section Only

variable {P : PlacementStmt → Prop} {α : Type}

@[simp] theorem only_read (q : Query) : (read q).Only P ↔ P (.read q) := Tx.only_perform

@[simp] theorem only_lockRead (key : RowKey) (q : Query) :
    (lockRead key q).Only P ↔ P (.lockRead key q) := Tx.only_perform

@[simp] theorem only_write (w : Write) : (write w).Only P ↔ P (.write w) := Tx.only_perform

@[simp] theorem only_updateOffer (u : OfferUpdate) :
    (updateOffer u).Only P ↔ P (.updateOffer u) := Tx.only_perform

@[simp] theorem only_require' (cond : Bool) (e : PlacementError) : (require cond e).Only P :=
  Tx.only_require (σ := placementStore) cond e

@[simp] theorem only_orThrow (found : Option α) (e : PlacementError) :
    (orThrow found e).Only P := by
  cases found <;> trivial

theorem only_writeAll {ws : List Write} (h : ∀ w ∈ ws, P (.write w)) : (writeAll ws).Only P := by
  induction ws with
  | nil => trivial
  | cons w rest ih =>
    exact ⟨h w List.mem_cons_self, fun _ => ih fun x hx => h x (List.mem_cons_of_mem w hx)⟩

theorem only_giving {t : PlacementTx α} {f : α → PlacementOutcome} (h : t.Only P) :
    (giving t f).Only P :=
  Tx.only_bind h fun _ => trivial

end Only

theorem wp_giving {α : Type} {Q : PlacementOutcome → PlacementDb → Prop} {t : PlacementTx α}
    {f : α → PlacementOutcome} (h : t.wp ok (fun a d => Q (f a) d) d) : (giving t f).wp ok Q d := by
  rw [giving, Tx.wp_bind]
  exact h

theorem only_checkAttempt (e : Engagement) (attempt : PlacementProcess) :
    (checkAttempt e attempt).Only Reads := by
  unfold checkAttempt
  split
  · exact Tx.only_bind ((only_read _).mpr trivial) fun _ => only_require' _ _
  · exact only_require' _ _

theorem only_lockAssignment (tenantId placementProcessId : Nat) :
    (lockAssignment tenantId placementProcessId).Only Reads := by
  refine Tx.only_bind ((only_read _).mpr trivial) fun found => ?_
  cases found with
  | none => trivial
  | some a => exact (only_lockRead _ _).mpr trivial

theorem only_resolveEffectiveTermRow (t r asOf : Nat) :
    (resolveEffectiveTermRow t r asOf).Only Reads :=
  Tx.only_bind ((only_read _).mpr trivial) fun _ =>
    Tx.only_bind (only_require' _ _) fun _ => trivial

theorem only_resolvePermanentActivation (input : TransitionInput) (requisitionId : Nat) :
    (resolvePermanentActivation input requisitionId).Only Reads := by
  refine Tx.only_bind (only_orThrow _ _) fun recordedBy =>
    Tx.only_bind (only_orThrow _ _) fun start =>
    Tx.only_bind (only_resolveEffectiveTermRow _ _ _) fun stored => ?_
  cases stored with
  | none => exact Tx.only_bind (only_orThrow _ _) fun _ => trivial
  | some row => exact Tx.only_bind (only_require' _ _) fun _ => trivial

theorem only_lockActiveAssignment (t p : Nat) : (lockActiveAssignment t p).Only Reads :=
  Tx.only_bind (only_lockAssignment t p) fun _ => Tx.only_bind (only_orThrow _ _) fun _ =>
    Tx.only_bind (only_require' _ _) fun _ => trivial

theorem only_loadPermanent (ref : PermanentRef) : (loadPermanent ref).Only Reads :=
  Tx.only_bind ((only_read _).mpr trivial) fun _ => only_orThrow _ _

theorem only_loadProposal (ref : ProposalRef) : (loadProposal ref).Only Reads :=
  Tx.only_bind ((only_read _).mpr trivial) fun _ => only_orThrow _ _

theorem wp_lockActiveAssignment {Q : ContractAssignment → PlacementDb → Prop} {t p : Nat}
    (h : ∀ found a, ok (.read (.assignment t p)) (some found) d →
      ok (.lockRead (.assignment found.id) (.assignment t p)) (some a) d →
      a.lifecycleState = .active → Q a d) :
    (lockActiveAssignment t p).wp ok Q d := by
  rw [lockActiveAssignment, lockAssignment, bind_eq_tx, Tx.wp_bind]
  refine wp_bind_read fun found hfound => ?_
  cases found with
  | none => trivial
  | some a =>
    rintro locked hlocked -
    refine wp_bind_orThrow fun row hrow => wp_bind_require fun hactive => ?_
    exact h a row hfound (hrow ▸ hlocked) (eq_of_beq hactive)

/-! ## Placements -/

variable {Q : Unit → PlacementDb → Prop}

theorem wp_checkPredecessor {e : Engagement} {replacesId : Nat}
    (h : ∀ p, ok (.read (.placement e.tenantId replacesId)) (some p) d →
      p.engagement.requisitionId = e.requisitionId → p.state.guardInactive = true → Q () d) :
    (checkPredecessor e replacesId).wp ok Q d := by
  refine wp_bind_read fun predecessor hread => wp_bind_require fun hsame => ?_
  cases predecessor with
  | none => cases hsame
  | some p =>
    rw [require, Tx.wp_require]
    exact fun hinactive => h p hread (eq_of_beq hsame) hinactive

theorem wp_createPlacement {Q : Nat → PlacementDb → Prop} {input : CreatePlacementInput} {now : Nat}
    (h : ∀ offerId offer id, input.offerId = some offerId →
      (∀ replacesId, input.replacesPlacementProcessId = some replacesId →
        ∃ p, ok (.read (.placement input.engagement.tenantId replacesId)) (some p) d ∧
          p.engagement.requisitionId = input.engagement.requisitionId ∧
          p.state.guardInactive = true) →
      ok (.read (.acceptedOffer input.engagement.tenantId offerId)) (some offer) d →
      ok (.read (.livePlacement input.engagement.tenantId input.engagement.submittalId)) false d →
      let row := input.row id offerId (input.offeredAt.getD now)
      let ws := [Write.placement (.insert row), .outbox (.processCreated id)]
      admitsAll ws d = true → Q id (applyAll ws d)) :
    (createPlacement input now).wp ok Q d := by
  rw [createPlacement, bind_eq_tx, Tx.wp_bind]
  -- what is left after the predecessor
  refine Tx.wp_mono (Q := fun _ d' => d' = d ∧ ∀ replacesId,
    input.replacesPlacementProcessId = some replacesId →
      ∃ p, ok (.read (.placement input.engagement.tenantId replacesId)) (some p) d ∧
        p.engagement.requisitionId = input.engagement.requisitionId ∧
        p.state.guardInactive = true) ?_ ?_
  · cases hreplaces : input.replacesPlacementProcessId with
    | none => exact ⟨rfl, fun r hr => by cases hr⟩
    | some replacesId =>
      refine wp_checkPredecessor fun p hread hreq hinactive => ⟨rfl, fun r hr => ?_⟩
      obtain rfl := Option.some.inj hr
      exact ⟨p, hread, hreq, hinactive⟩
  · rintro _ d' ⟨rfl, hpredecessor⟩
    refine wp_bind_read fun attempts _ => ?_
    refine wp_bind_of_reads (Tx.only_forEach (only_checkAttempt input.engagement)) fun _ => ?_
    refine wp_bind_orThrow fun offerId hofferId => wp_bind_read fun accepted haccepted => ?_
    refine wp_bind_require fun hsome => wp_bind_require fun _ => wp_bind_newId fun id => ?_
    refine wp_bind_read fun live hlive => wp_bind_require fun hfree => ?_
    obtain ⟨offer, rfl⟩ := Option.isSome_iff_exists.mp hsome
    obtain rfl : live = false := by simpa using hfree
    exact wp_bind_writeAll fun hadmits =>
      h offerId offer id hofferId hpredecessor haccepted hlive hadmits

theorem wp_transition {input : TransitionInput}
    (hplain : ∀ current,
      ok (.read (.placement input.tenantId input.placementProcessId)) (some current) d →
      canTransition current.state input.target = true → input.target ≠ .started →
      admitsAll (moveWrites current input.target) d = true →
      Q () (applyAll (moveWrites current input.target) d))
    (hcontract : ∀ current assignmentId versionId companyId terms recordedBy,
      ok (.read (.placement input.tenantId input.placementProcessId)) (some current) d →
      canTransition current.state .started = true → current.placementKind ≠ some .permanent →
      let a := assignmentRow assignmentId companyId input.startedAt current
      let ws := moveWrites current .started ++
        contractWrites a (rateVersionRow versionId a terms input.startedAt recordedBy none)
      admitsAll ws d = true → Q () (applyAll ws d))
    (hpermanent : ∀ current id guarantee,
      ok (.read (.placement input.tenantId input.placementProcessId)) (some current) d →
      canTransition current.state .started = true → current.placementKind = some .permanent →
      let row := permanentRow id current.id current.engagement guarantee
      let ws := moveWrites current .started ++ permanentWrites row ++ permanentOutbox row
      admitsAll ws d = true → Q () (applyAll ws d)) :
    (transition input).wp ok Q d := by
  refine wp_bind_read fun found hfound => wp_bind_orThrow fun current hcurrent => ?_
  subst hcurrent
  refine wp_bind_require fun hedge => wp_bind_require fun _ => wp_bind_require fun _ =>
    wp_bind_require fun _ => ?_
  rw [moveTo]
  split
  next hperm =>
    obtain ⟨htarget, hkind⟩ : input.target = .started ∧
      current.placementKind = some .permanent := by
      simpa [isPermanentStart] using hperm
    rw [htarget] at hedge
    refine wp_bind_of_reads (only_resolvePermanentActivation _ _) fun guarantee => ?_
    refine wp_bind_require fun _ => wp_bind_newId fun id => wp_writeAll fun hadmits => ?_
    exact hpermanent current id guarantee hfound hedge hkind hadmits
  next hperm =>
    split
    next htarget =>
      have hkind : current.placementKind ≠ some .permanent := by
        intro hkind
        exact hperm (by simp [isPermanentStart, htarget, hkind])
      rw [htarget] at hedge
      refine wp_bind_orThrow fun companyId _ => wp_bind_orThrow fun terms _ =>
        wp_bind_orThrow fun recordedBy _ => wp_bind_newId fun assignmentId =>
        wp_bind_newId fun versionId => wp_writeAll fun hadmits => ?_
      exact hcontract current assignmentId versionId companyId terms recordedBy hfound hedge hkind
        hadmits
    next htarget =>
      refine wp_bind_require fun _ => wp_writeAll fun hadmits => ?_
      exact hplain current hfound hedge htarget hadmits

theorem wp_endAssignment {input : EndAssignmentInput} {txNow : Nat}
    (h : ∀ a versions,
      ok (.read (.activeAssignment input.tenantId input.placementProcessId)) (some a) d →
      ok (.read (.rateVersions input.tenantId a.id)) versions d →
      let ws := endWrites a versions (.given input.endReason) txNow input.endedBy
      admitsAll ws d = true → Q () (applyAll ws d)) :
    (endAssignment input txNow).wp ok Q d := by
  refine wp_bind_of_reads (only_lockAssignment _ _) fun _ =>
    wp_bind_read fun existing hexisting => ?_
  refine wp_bind_orThrow fun a ha => wp_bind_read fun versions hversions => ?_
  subst ha
  exact wp_writeAll fun hadmits => h a versions hexisting hversions hadmits

theorem wp_convertToPermanent {input : ConvertInput} {txNow : Nat}
    (hreplayed : Q () d)
    (h : ∀ source a versions guarantee targetId permanentId lineageId,
      ok (.read (.conversion input.tenantId input.placementProcessId)) none d →
      ok (.read (.placement input.tenantId input.placementProcessId)) (some source) d →
      source.state = .started →
      ok (.read (.activeAssignment input.tenantId input.placementProcessId)) (some a) d →
      ok (.read (.rateVersions input.tenantId a.id)) versions d →
      let ended := endWrites a versions .convertedToPermanent txNow input.convertedBy
      let target := targetRow targetId a.engagement txNow
      let permanent := permanentRow permanentId targetId a.engagement guarantee
      let lineage : ConversionLineage := ⟨lineageId, input.tenantId, input.placementProcessId, a.id,
        targetId, permanentId, txNow, input.convertedBy⟩
      let started := conversionWrites target permanent lineage
      admitsAll ended d = true →
      ok (.read (.livePlacement a.engagement.tenantId a.engagement.submittalId)) false
        (applyAll ended d) →
      admitsAll started (applyAll ended d) = true →
      Q () (applyAll started (applyAll ended d))) :
    (convertToPermanent input txNow).wp ok Q d := by
  refine wp_bind_of_reads (only_lockAssignment _ _) fun _ => wp_bind_read fun prior hprior => ?_
  cases prior with
  | some _ => exact hreplayed
  | none =>
    refine wp_bind_read fun found hfound => wp_bind_orThrow fun source hsource => ?_
    subst hsource
    refine wp_bind_require fun hstarted => wp_bind_read fun existing hexisting => ?_
    refine wp_bind_orThrow fun a ha => ?_
    subst ha
    refine wp_bind_of_reads (only_resolveEffectiveTermRow _ _ _) fun stored => ?_
    refine wp_bind_orThrow fun version _ => wp_bind_read fun versions hversions => ?_
    refine wp_bind_writeAll fun hended => wp_bind_newId fun targetId => ?_
    refine wp_bind_read fun live hlive => wp_bind_require fun hfree => ?_
    obtain rfl : live = false := by simpa using hfree
    refine wp_bind_newId fun permanentId => wp_bind_newId fun lineageId =>
      wp_writeAll fun hadmits => ?_
    exact h source a versions _ targetId permanentId lineageId hprior hfound (eq_of_beq hstarted)
      hexisting hversions hended hlive hadmits

/-! ## Commercial revisions -/

theorem wp_appendCommercialRevisionInTx {Q : AssignmentRateVersion → PlacementDb → Prop}
    {input : RevisionInput} {tNew : Nat}
    (h : ∀ found a predecessor id,
      ok (.read (.assignment input.tenantId input.placementProcessId)) (some found) d →
      ok (.lockRead (.assignment found.id) (.assignment input.tenantId input.placementProcessId))
        (some a) d →
      a.lifecycleState = .active →
      ok (.read (.openRateVersion input.tenantId a.id)) (some predecessor) d →
      predecessor.effectiveFrom < tNew →
      let successor :=
        rateVersionRow id a input.terms tNew input.recordedBy (some input.changeReason)
      admitsAll (appendWrites predecessor successor) d = true →
      Q successor (applyAll (appendWrites predecessor successor) d)) :
    (appendCommercialRevisionInTx input tNew).wp ok Q d := by
  rw [appendCommercialRevisionInTx, bind_eq_tx, Tx.wp_bind]
  refine wp_lockActiveAssignment fun found a hfound hlocked hactive => ?_
  refine wp_bind_read fun open_ hopen => wp_bind_orThrow fun predecessor hpredecessor => ?_
  subst hpredecessor
  refine wp_bind_require fun hafter => wp_bind_newId fun id => wp_bind_writeAll fun hadmits => ?_
  exact h found a predecessor id hfound hlocked hactive hopen (of_decide_eq_true hafter) hadmits

/-! ## Permanent placements -/

theorem wp_loadPermanent {Q : PermanentPlacement → PlacementDb → Prop} {ref : PermanentRef}
    (h : ∀ current, ok (.read (.permanent ref.tenantId ref.placementProcessId)) (some current) d →
      Q current d) : (loadPermanent ref).wp ok Q d := by
  refine wp_bind_read fun found hfound => ?_
  cases found with
  | none => trivial
  | some current => exact h current hfound

theorem wp_permanentTransition {ref : PermanentRef}
    {target : PermanentState} {todayUtc : Nat}
    (h : ∀ current, ok (.read (.permanent ref.tenantId ref.placementProcessId)) (some current) d →
      canTransitionPermanentPlacement current.lifecycleState target = true →
      (target = .guaranteeSatisfied → current.guarantee.endDate ≤ todayUtc) →
      let ws := Write.permanent (.setState current.id target) ::
        permanentRecord .guaranteeSatisfied ⟨current.id, some current.lifecycleState, target⟩
      admitsAll ws d = true → Q () (applyAll ws d)) :
    (permanentTransition ref target todayUtc).wp ok Q d := by
  rw [permanentTransition, bind_eq_tx, Tx.wp_bind]
  refine wp_loadPermanent fun current hcurrent => ?_
  refine wp_bind_require fun hedge => wp_bind_require fun hwindow => wp_writeAll fun hadmits => ?_
  refine h current hcurrent hedge (fun htarget => ?_) hadmits
  simpa [htarget] using hwindow

theorem wp_recordFalloff {input : FalloffInput} {now : Nat}
    (h : ∀ current id,
      ok (.read (.permanent input.ref.tenantId input.ref.placementProcessId)) (some current) d →
      canTransitionPermanentPlacement current.lifecycleState .fellOff = true →
      let falloff : Falloff := ⟨input.effectiveDate, input.reason, input.recordedBy, now⟩
      let ws := falloffWrites current (remedyRow id current falloff) falloff
      admitsAll ws d = true → Q () (applyAll ws d)) :
    (recordFalloff input now).wp ok Q d := by
  rw [recordFalloff, bind_eq_tx, Tx.wp_bind]
  refine wp_loadPermanent fun current hcurrent => ?_
  refine wp_bind_require fun hedge => wp_bind_require fun _ => wp_bind_require fun _ => ?_
  exact wp_bind_newId fun id => wp_writeAll fun hadmits => h current id hcurrent hedge hadmits

theorem only_validateCompletionEvidence (current : PermanentPlacement)
    (remedy : PermanentPlacementRemedy) (input : CompletionInput) (now : Nat) :
    (validateCompletionEvidence current remedy input now).Only Reads := by
  unfold validateCompletionEvidence
  split
  · exact Tx.only_bind (only_require' _ _) fun _ => Tx.only_bind (only_orThrow _ _) fun _ =>
      Tx.only_bind (only_require' _ _) fun _ => Tx.only_bind ((only_read _).mpr trivial) fun _ =>
      Tx.only_bind (only_require' _ _) fun _ => trivial
  · exact Tx.only_bind (only_require' _ _) fun _ => Tx.only_bind (only_orThrow _ _) fun _ =>
      Tx.only_bind (only_require' _ _) fun _ => trivial

theorem wp_completeRemedy {input : CompletionInput} {now : Nat}
    (h : ∀ current remedy completion,
      ok (.read (.permanent input.ref.tenantId input.ref.placementProcessId)) (some current) d →
      ok (.read (.remedy input.ref.tenantId current.id)) (some remedy) d →
      remedy.completion = none → current.lifecycleState.isRemedyDue = true →
      admitsAll (completionWrites current remedy completion) d = true →
      Q () (applyAll (completionWrites current remedy completion) d)) :
    (completeRemedy input now).wp ok Q d := by
  rw [completeRemedy, bind_eq_tx, Tx.wp_bind]
  refine wp_loadPermanent fun current hcurrent => ?_
  refine wp_bind_read fun found hfound => wp_bind_orThrow fun remedy hremedy => ?_
  subst hremedy
  refine wp_bind_require fun hopen => wp_bind_require fun hdue => ?_
  refine wp_bind_of_reads (only_validateCompletionEvidence _ _ _ _) fun completion => ?_
  refine wp_writeAll fun hadmits => h current remedy completion hcurrent hfound ?_ hdue hadmits
  exact Option.isNone_iff_eq_none.mp (Bool.and_eq_true_iff.mp hopen).1

/-! ## Offers -/

theorem wp_createOffer {Q : Nat → PlacementDb → Prop} {input : CreateOfferInput}
    (h : ∀ id,
      ok (.read (.liveOffer input.engagement.tenantId input.engagement.submittalId)) false d →
      let ws := [Write.offer (.insert (input.row id)), .offer (.event ⟨id, none, .draft⟩),
        .outbox (.offerCreated id input.engagement),
        .offer (.insertRevision (revisionRow (input.row id) 1 input.actorId none))]
      admitsAll ws d = true → Q id (applyAll ws d)) :
    (createOffer input).wp ok Q d := by
  refine wp_bind_newId fun id => wp_bind_read fun live hlive => wp_bind_require fun hfree => ?_
  obtain rfl : live = false := by simpa using hfree
  exact wp_bind_writeAll fun hadmits => h id hlive hadmits

theorem wp_transitionOffer {input : TransitionOfferInput}
    (h : ∀ existing action updated,
      let u : OfferUpdate :=
        ⟨input.id, input.tenantId, existing.state, input.target, input.change⟩
      let record := offerRecord action ⟨input.id, some existing.state, input.target⟩
      ok (.read (.offer input.tenantId input.id)) (some existing) d →
      governingOfferAction existing.state input.target = some action →
      ok (.updateOffer u) true d → u.allowed d = true →
      ok (.lockRead (.offer input.id) (.offerById input.id)) (some updated) (u.apply d) →
      admitsAll record (u.apply d) = true →
      (input.change.termsChanged = false → Q () (applyAll record (u.apply d))) ∧
      ∀ priorCount,
        let revision := [Write.offer (.insertRevision ⟨input.tenantId, input.id, priorCount + 1,
          updated.terms, input.actorId, input.changeReason⟩)]
        input.change.termsChanged = true →
        ok (.lockRead (.offer input.id) (.revisionCount input.tenantId input.id)) priorCount
          (applyAll record (u.apply d)) →
        admitsAll revision (applyAll record (u.apply d)) = true →
        Q () (applyAll revision (applyAll record (u.apply d)))) :
    (transitionOffer input).wp ok Q d := by
  refine wp_bind_read fun found hfound => wp_bind_orThrow fun existing hexisting => ?_
  subst hexisting
  refine wp_bind_orThrow fun action haction => wp_bind_require fun _ => ?_
  refine wp_bind_updateOffer fun hit hupdate hallowed => wp_bind_require fun hhit => ?_
  subst hhit
  refine wp_bind_lockRead fun row hrow => wp_bind_orThrow fun updated hupdated => ?_
  subst hupdated
  refine wp_bind_writeAll fun hadmits => ?_
  obtain ⟨hsame, hrevised⟩ := h existing action updated hfound haction hupdate hallowed hrow hadmits
  cases hchanged : input.change.termsChanged with
  | false => exact hsame hchanged
  | true =>
    refine wp_bind_lockRead fun priorCount hcount => ?_
    intro _ _ hrevision
    exact hrevised priorCount hchanged hcount ((admitsAll_cons _ _ _).mpr ⟨hrevision, rfl⟩)

theorem wp_expireOverdueOffers {now item : Nat}
    (h : ∀ o,
      let u : OfferUpdate := ⟨o.id, o.engagement.tenantId, o.state, .expired, .none⟩
      let record := offerRecord .expire ⟨o.id, some o.state, .expired⟩
      ok (.read (.overdueOffer now item)) (some o) d → u.allowed d = true →
      (ok (.updateOffer u) false d → Q () (u.apply d)) ∧
      (ok (.updateOffer u) true d → admitsAll record (u.apply d) = true →
        Q () (applyAll record (u.apply d)))) :
    (expireOverdueOffers now item).wp ok Q d := by
  refine wp_bind_read fun listed hlisted => wp_bind_orThrow fun o ho => ?_
  subst ho
  refine wp_bind_updateOffer fun hit hupdate hallowed => ?_
  obtain ⟨hmissed, hhit⟩ := h o hlisted hallowed
  cases hit with
  | false => exact hmissed hupdate
  | true => exact wp_writeAll fun hadmits => hhit hupdate hadmits

/-! ## Proposals -/

theorem wp_createCommercialRevisionProposal {Q : Nat → PlacementDb → Prop} {input : ProposeInput}
    (h : ∀ a reference id,
      ok (.read (.assignment input.tenantId input.placementProcessId)) (some a) d →
      let ws := Write.proposal (.insert (input.row id a reference)) ::
        proposalRecord ⟨id, none, .draft⟩ none input.requestedBy none
      admitsAll ws d = true → Q id (applyAll ws d)) :
    (createCommercialRevisionProposal input).wp ok Q d := by
  refine wp_bind_read fun found hfound => wp_bind_orThrow fun a ha => wp_bind_require fun _ => ?_
  subst ha
  refine wp_bind_read fun open_ _ => wp_bind_orThrow fun reference _ => wp_bind_newId fun id => ?_
  exact wp_bind_writeAll fun hadmits => h a reference id hfound hadmits

theorem wp_loadProposal {Q : CommercialRevisionProposal → PlacementDb → Prop} {ref : ProposalRef}
    (h : ∀ p, ok (.read (.proposal ref.tenantId ref.placementProcessId ref.proposalId)) (some p) d →
      Q p d) : (loadProposal ref).wp ok Q d := by
  refine wp_bind_read fun found hfound => ?_
  cases found with
  | none => trivial
  | some p => exact h p hfound

theorem wp_transitionCommercialRevisionProposal {ref : ProposalRef}
    {withdraw : Bool} {actorId : Nat}
    (h : ∀ p, let action : CommercialApprovalAction := if withdraw then .withdraw else .submit
      ok (.read (.proposal ref.tenantId ref.placementProcessId ref.proposalId)) (some p) d →
      governingCommercialProposalAction p.state action.target = some action →
      admitsAll (proposalWrites p action .none actorId) d = true →
      Q () (applyAll (proposalWrites p action .none actorId) d)) :
    (transitionCommercialRevisionProposal ref withdraw actorId).wp ok Q d := by
  rw [transitionCommercialRevisionProposal, bind_eq_tx, Tx.wp_bind]
  refine wp_loadProposal fun p hp => wp_bind_require fun hedge => wp_writeAll fun hadmits => ?_
  exact h p hp (eq_of_beq hedge) hadmits

theorem wp_decideCommercialRevisionProposal {input : DecideInput}
    {now : Nat}
    (hmove : ∀ p,
      ok (.read (.proposal input.ref.tenantId input.ref.placementProcessId input.ref.proposalId))
        (some p) d →
      governingCommercialProposalAction p.state input.action.target = some input.action →
      input.action.isAuthority = true → input.action ≠ .apply → input.actorId ≠ p.requestedBy →
      stagesSeparate p input.action input.actorId = true →
      let ws := proposalWrites p input.action (decisionEvidence input.action input.actorId)
        input.actorId
      admitsAll ws d = true → Q () (applyAll ws d))
    (hreplayed : Q () d)
    (happly : ∀ p found a predecessor versionId,
      ok (.read (.proposal input.ref.tenantId input.ref.placementProcessId input.ref.proposalId))
        (some p) d →
      input.action = .apply → p.state = .approved → input.actorId ≠ p.requestedBy →
      p.clientApprovalRecordedBy ≠ some input.actorId →
      ok (.lockRead (.proposal p.id) (.proposalState input.ref.tenantId p.id)) (some .approved) d →
      (∀ t, p.proposedEffectiveFrom = some t → now ≤ t) →
      ok (.read (.assignment input.ref.tenantId p.placementProcessId)) (some found) d →
      ok (.lockRead (.assignment found.id) (.assignment input.ref.tenantId p.placementProcessId))
        (some a) d →
      a.lifecycleState = .active →
      ok (.read (.openRateVersion input.ref.tenantId a.id)) (some predecessor) d →
      let tNew := p.proposedEffectiveFrom.getD now
      predecessor.effectiveFrom < tNew →
      let successor := rateVersionRow versionId a p.proposed tNew input.actorId (some p.reason)
      let ws := appendWrites predecessor successor ++ appliedWrites p versionId input.actorId now
      admitsAll ws d = true → Q () (applyAll ws d)) :
    (decideCommercialRevisionProposal input now).wp ok Q d := by
  rw [decideCommercialRevisionProposal, bind_eq_tx, Tx.wp_bind]
  refine wp_loadProposal fun p hp => wp_bind_require fun hedge => wp_bind_require fun hself => ?_
  refine wp_bind_require fun hstages => wp_bind_require fun _ => ?_
  obtain ⟨hgoverned, hauthority⟩ := Bool.and_eq_true_iff.mp hedge
  replace hgoverned := eq_of_beq hgoverned
  replace hself : input.actorId ≠ p.requestedBy := by simpa using hself
  split
  next happlied =>
    have hstate : p.state = .approved := by
      rw [happlied] at hgoverned
      revert hgoverned
      cases p.state <;> decide
    have hrecorder : p.clientApprovalRecordedBy ≠ some input.actorId := by
      simpa [stagesSeparate, happlied] using hstages
    refine wp_bind_lockRead fun lockedState hlocked => ?_
    split
    · exact hreplayed
    refine wp_bind_require fun happroved => ?_
    rw [eq_of_beq happroved] at hlocked
    refine wp_bind_require fun hfuture => ?_
    rw [bind_eq_tx, Tx.wp_bind]
    refine wp_appendCommercialRevisionInTx fun found a predecessor id hfound ha hactive hopen hafter
      happended => ?_
    refine wp_writeAll fun hadmits => ?_
    have hall := admitsAll_append.mpr ⟨happended, hadmits⟩
    rw [← applyAll_append]
    refine happly p found a predecessor id hp happlied hstate hself hrecorder hlocked ?_ hfound ha
      hactive hopen hafter hall
    intro t ht
    simpa [ht] using hfuture
  next happlied =>
    exact wp_writeAll fun hadmits =>
      hmove p hp hgoverned hauthority happlied hself hstages hadmits

/-! ## Guarantee terms -/

theorem wp_createTerm {input : TermInput}
    (h : ∀ id, let ws := [Write.term (.insert (input.row id none)),
        .outbox (.guaranteeTermsCreated (input.row id none))]
      admitsAll ws d = true → Q () (applyAll ws d)) :
    (createTerm input).wp ok Q d :=
  wp_bind_newId fun id => wp_writeAll fun hadmits => h id hadmits

theorem wp_reviseTerm {input : TermInput} {todayUtc : Nat}
    (h : ∀ predecessor id, todayUtc ≤ input.effectiveFrom →
      ok (.read (.openTerm input.tenantId input.requisitionId)) (some predecessor) d →
      predecessor.effectiveFrom < input.effectiveFrom →
      let ws := reviseWrites predecessor (input.row id (some predecessor.id))
      admitsAll ws d = true → Q () (applyAll ws d)) :
    (reviseTerm input todayUtc).wp ok Q d := by
  refine wp_bind_require fun htoday => wp_bind_read fun found hfound => ?_
  refine wp_bind_orThrow fun predecessor hpredecessor => ?_
  subst hpredecessor
  refine wp_bind_require fun hafter => wp_bind_newId fun id => wp_writeAll fun hadmits => ?_
  exact h predecessor id (of_decide_eq_true htoday) hfound (of_decide_eq_true hafter) hadmits

/-! ## Counts -/

theorem wp_bothReads {q q' : Query} {swapped : Bool} {Q : q.Rows × q'.Rows → PlacementDb → Prop}
    (h : ∀ rows rows', ok (.read q) rows d → ok (.read q') rows' d → Q (rows, rows') d) :
    (bothReads q q' swapped).wp ok Q d := by
  unfold bothReads
  cases swapped with
  | true =>
    exact wp_bind_read fun rows' hrows' =>
      wp_bind_read fun rows hrows => h rows rows' hrows hrows'
  | false =>
    exact wp_bind_read fun rows hrows =>
      wp_bind_read fun rows' hrows' => h rows rows' hrows hrows'

end PlacementTx

end AramoPlatform.Placement
