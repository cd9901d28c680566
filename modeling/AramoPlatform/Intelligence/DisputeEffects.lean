import AramoPlatform.Intelligence.AssertionEffects

/-!
# What a dispute action does

The state machine of disputes as a relation on the dispute's row and the status
of its assertion: five edges, and a clock that moves apart from them. Every
action of the service is shown to take one edge, to append statements and
events of its own dispute only, and to touch nothing else.
-/

namespace AramoPlatform.Intelligence

open Js Lib

/-! ## The edges -/

/-- The statuses in which a dispute ends without a correction. -/
def DisputeStatus.closes : DisputeStatus → Bool
  | .resolvedUpheld | .withdrawn | .resolvedNoTransition => true
  | _ => false

/-- The status of the assertion and of the dispute, before and after. -/
inductive DisputeEdge : AssertionStatus → DisputeStatus → AssertionStatus → DisputeStatus → Prop
  /-- A statement or a clock: no status moves. -/
  | stay (a : AssertionStatus) (s : DisputeStatus) : DisputeEdge a s a s
  /-- A live assertion becomes disputed. -/
  | triage {a : AssertionStatus} (hlive : a.retired = false) :
      DisputeEdge a .opened .disputed .underReview
  /-- The dispute ends and the assertion is not in it. -/
  | drop {a : AssertionStatus} {s s' : DisputeStatus} (hopen : s.isOpen = true)
      (ha : a ≠ .disputed) (hend : s'.closes = true) : DisputeEdge a s a s'
  /-- The dispute ends and the assertion is valid again. -/
  | lift {s' : DisputeStatus} (hend : s'.closes = true) :
      DisputeEdge .disputed .underReview .valid s'
  /-- The assertion is revoked with the decision. -/
  | correct : DisputeEdge .disputed .underReview .revoked .resolvedCorrected

/-- The extensions that a row has used. -/
def AssertionDispute.extensions (d : AssertionDispute) : Nat :=
  if d.reinvestigationExtendedAt.isSome then 1 else 0

/-- The clock of the reinvestigation, with the extensions of a step. -/
inductive ClockStep (d d' : AssertionDispute) : Nat → Prop
  | same (hdue : d'.reinvestigationDueAt = d.reinvestigationDueAt)
      (hext : d'.reinvestigationExtendedAt = d.reinvestigationExtendedAt) : ClockStep d d' 0
  | extended (hunused : d.reinvestigationExtendedAt = none)
      (hused : d'.reinvestigationExtendedAt.isSome = true)
      (hdue : d'.reinvestigationDueAt = d.reinvestigationDueAt +
        reinvestigationExtensionDays * msPerDay) : ClockStep d d' 1

/-- Which dispute it is, of what and since when. -/
structure SameDispute (d d' : AssertionDispute) : Prop where
  id : d'.id = d.id
  assertionId : d'.assertionId = d.assertionId
  openedAt : d'.openedAt = d.openedAt

/-- One dispute is rewritten by `f`, the status of its assertion by `g`. -/
structure DisputeChange (db : GoldenDb) (d : AssertionDispute)
    (f : AssertionDispute → AssertionDispute) (g : AssertionStatus → AssertionStatus)
    (db' : GoldenDb) : Prop where
  disputes : db'.disputes = updateWhere (·.id == d.id) f db.disputes
  assertions : db'.assertions = updateWhere (·.id == d.assertionId)
    (fun a => { a with currentStatus := g a.currentStatus }) db.assertions
  same : ∀ x, SameDispute x (f x)
  edge : ∀ a ∈ db.assertions, a.id = d.assertionId →
    DisputeEdge a.currentStatus d.status (g a.currentStatus) (f d).status
  statements : ∃ said, db'.statements = db.statements ++ said ∧ ∀ s ∈ said, s.disputeId = d.id
  events : ∃ noted, db'.disputeEvents = db.disputeEvents ++ noted ∧
    (∀ e ∈ noted, e.disputeId = d.id) ∧ ClockStep d (f d) (noted.countP (·.eventType == .extended))
  next : db.nextId ≤ db'.nextId

/-! ## Statements -/

section Statements

variable {db : GoldenDb} {d : AssertionDispute}

theorem assertions_unchanged (id : Nat) :
    db.assertions = updateWhere (·.id == id)
      (fun a => { a with currentStatus := a.currentStatus }) db.assertions :=
  (updateWhere_eq_self fun _ _ _ => rfl).symm

theorem disputes_unchanged (id : Nat) :
    db.disputes = updateWhere (·.id == id) (fun x => x) db.disputes :=
  (updateWhere_eq_self fun _ _ _ => rfl).symm

section

variable (hkeyed : Keyed (·.id) db.assertions db.nextId)

include hkeyed

/-- The guarded write goes through exactly while the status is the one read. -/
theorem canTransition_eq_true {a : Assertion}
    (ha : a ∈ db.assertions) {source : AssertionStatus} :
    db.canTransition a.id source = true ↔ a.currentStatus = source := by
  simp only [GoldenDb.canTransition, List.any_eq_true, Bool.and_eq_true, beq_iff_eq]
  constructor
  · rintro ⟨b, hb, hid, hstatus⟩
    obtain rfl := eq_of_assertion_id hkeyed ha hb hid
    exact hstatus
  · intro hstatus
    exact ⟨a, ha, rfl, hstatus⟩

theorem moveAssertion_of_eq {a : Assertion}
    (ha : a ∈ db.assertions) {source target : AssertionStatus} (h : a.currentStatus = source)
    (type : AssertionEventType) (actor : JsString) :
    moveAssertion db a.id source target type actor =
      (true, (db.setStatus a.id target).appendEvent a.id type (some source) (some target) actor) :=
  if_pos ((canTransition_eq_true hkeyed ha).mpr h)

theorem moveAssertion_of_ne {a : Assertion}
    (ha : a ∈ db.assertions) {source target : AssertionStatus} (h : a.currentStatus ≠ source)
    (type : AssertionEventType) (actor : JsString) :
    moveAssertion db a.id source target type actor = (false, db) :=
  if_neg fun hcan => h ((canTransition_eq_true hkeyed ha).mp hcan)

end

end Statements

theorem addDisputeEvent_appends (db : GoldenDb) (d : AssertionDispute) (type : DisputeEventType)
    (target : Option DisputeStatus) (actor : JsString) (tenant : Option TenantKey) :
    ∃ e, (addDisputeEvent db d type target actor tenant).disputeEvents = db.disputeEvents ++ [e] ∧
      e.disputeId = d.id ∧ e.eventType = type :=
  ⟨_, rfl, rfl, rfl⟩

/-! ## The actions -/

section Actions

variable {host : Host} {db db' : GoldenDb}

theorem talk_change {d : AssertionDispute} (author : DisputeStatementAuthor) (text : JsString)
    {type : DisputeEventType} (htype : type ≠ .extended) (target : Option DisputeStatus)
    (actor : JsString) (tenant : Option TenantKey) :
    DisputeChange db d id id (addDisputeEvent (addStatement host db d.id author text) d type target
      actor tenant) := by
  obtain ⟨e, hnoted, hid, rfl⟩ := addDisputeEvent_appends (addStatement host db d.id author text) d
    type target actor tenant
  refine ⟨disputes_unchanged d.id, assertions_unchanged d.assertionId, fun _ => ⟨rfl, rfl, rfl⟩,
    fun a _ _ => .stay _ _, ⟨_, rfl, ?_⟩, ⟨[e], hnoted, ?_, ?_⟩,
    Nat.le_succ_of_le (Nat.le_succ _)⟩
  · simp
  · simpa using hid
  · have hcount : [e].countP (·.eventType == .extended) = 0 := by simpa using htype
    rw [hcount]
    exact .same rfl rfl

/-- An action that ends or moves a dispute: the row by `f`, the assertion by
`g`, and one event. -/
theorem move_change (db : GoldenDb) (d : AssertionDispute)
    (f : AssertionDispute → AssertionDispute) (g : AssertionStatus → AssertionStatus)
    (type : DisputeEventType) {db₁ : GoldenDb} (hframe : SameDisputes db db₁)
    (hnext : db.nextId ≤ db₁.nextId)
    (hassertions : db₁.assertions = updateWhere (·.id == d.assertionId)
      (fun a => { a with currentStatus := g a.currentStatus }) db.assertions)
    (hsame : ∀ x, SameDispute x (f x))
    (hedge : ∀ a ∈ db.assertions, a.id = d.assertionId →
      DisputeEdge a.currentStatus d.status (g a.currentStatus) (f d).status)
    (hclock : ClockStep d (f d) (if type = .extended then 1 else 0))
    (target : Option DisputeStatus) (actor : JsString) (tenant : Option TenantKey) :
    ∃ f' g', DisputeChange db d f' g'
      (addDisputeEvent (db₁.updateDispute d.id f) d type target actor tenant) := by
  obtain ⟨e, hnoted, hid, rfl⟩ :=
    addDisputeEvent_appends (db₁.updateDispute d.id f) d type target actor tenant
  refine ⟨f, g, ?_, hassertions, hsame, hedge, ⟨[], ?_, ?_⟩, ⟨[e], ?_, ?_, ?_⟩,
    Nat.le_succ_of_le hnext⟩
  · rw [← hframe.disputes]
    rfl
  · rw [List.append_nil, ← hframe.statements]
    rfl
  · simp
  · rw [hnoted, ← hframe.disputeEvents]
    rfl
  · simpa using hid
  · simpa [List.countP_cons] using hclock

/-! ### A dispute and its assertion

An open dispute that is not under review is about an assertion that is not
disputed: the machine's invariant gives this to every action. -/

section OfAssertion

variable {d : AssertionDispute} {a : Assertion}

section

variable (hkeyed : Keyed (·.id) db.assertions db.nextId)

include hkeyed

theorem edge_of_assertion
    (ha : a ∈ db.assertions) (hid : a.id = d.assertionId) {s' : DisputeStatus}
    (g : AssertionStatus → AssertionStatus)
    (h : DisputeEdge a.currentStatus d.status (g a.currentStatus) s') :
    ∀ b ∈ db.assertions, b.id = d.assertionId →
      DisputeEdge b.currentStatus d.status (g b.currentStatus) s' := by
  intro b hb hbid
  obtain rfl := eq_of_assertion_id hkeyed ha hb (hbid.trans hid.symm)
  exact h

theorem drop_change (ha : a ∈ db.assertions)
    (hid : a.id = d.assertionId) (hopen : d.status.isOpen = true)
    (hleft : a.currentStatus ≠ .disputed) (f : AssertionDispute → AssertionDispute)
    (hsame : ∀ x, SameDispute x (f x)) (hend : (f d).status.closes = true)
    (hclock : ClockStep d (f d) 0) (type : DisputeEventType) (htype : type ≠ .extended)
    (target : Option DisputeStatus) (actor : JsString) (tenant : Option TenantKey) :
    ∃ f' g', DisputeChange db d f' g'
      (addDisputeEvent (db.updateDispute d.id f) d type target actor tenant) := by
  refine move_change db d f id type (.refl db) (Nat.le_refl _) (assertions_unchanged _) hsame
    (edge_of_assertion hkeyed ha hid id (.drop hopen hleft hend)) ?_ _ _ _
  rw [if_neg htype]
  exact hclock

theorem withdraw_change (ha : a ∈ db.assertions)
    (hid : a.id = d.assertionId) (hopen : d.status.isOpen = true)
    (hopened : d.status = .opened → a.currentStatus ≠ .disputed) (actor : JsString) (now : Nat) :
    ∃ f g, DisputeChange db d f g (applyWithdraw db d actor now) := by
  have hclosed : (!d.status.isOpen) = true ↔ False := by simp [hopen]
  unfold applyWithdraw
  simp only [hclosed, if_false, ← hid]
  by_cases hreview : d.status = .underReview
  · by_cases hdisputed : a.currentStatus = .disputed
    · -- the assertion that the triage disputed is valid again
      rw [if_pos hreview, moveAssertion_of_eq hkeyed ha hdisputed]
      refine move_change db d
        (fun x => { x with status := .withdrawn, withdrawnAt := some now, resolvedAt := some now })
        (fun _ => .valid) .withdrawn ?_ ?_ ?_ (fun _ => ⟨rfl, rfl, rfl⟩)
        (edge_of_assertion hkeyed ha hid (fun _ => .valid) ?_) (.same rfl rfl) _ _ _
      · exact ⟨rfl, rfl, rfl⟩
      · exact Nat.le_succ _
      · rw [← hid]
        rfl
      · rw [hdisputed, hreview]
        exact .lift rfl
    · rw [if_pos hreview, moveAssertion_of_ne hkeyed ha hdisputed]
      exact drop_change hkeyed ha hid hopen hdisputed
        (fun x => { x with status := .withdrawn, withdrawnAt := some now, resolvedAt := some now })
        (fun _ => ⟨rfl, rfl, rfl⟩) rfl (.same rfl rfl) .withdrawn (by decide) _ _ _
  · rw [if_neg hreview]
    have hstatus : d.status = .opened := by
      cases hs : d.status <;> simp_all [DisputeStatus.isOpen]
    exact drop_change hkeyed ha hid hopen (hopened hstatus)
      (fun x => { x with status := .withdrawn, withdrawnAt := some now, resolvedAt := some now })
      (fun _ => ⟨rfl, rfl, rfl⟩) rfl (.same rfl rfl) .withdrawn (by decide) _ _ _

end

variable {ctx : TenantContext}

section

variable (hkeyed : Keyed (·.id) db.assertions db.nextId)

include hkeyed

section

variable (ha : ctx.assertion ∈ db.assertions)

include ha

section

variable (hid : ctx.assertion.id = ctx.dispute.assertionId)

include hid

theorem noTransition_change
    (hopen : ctx.dispute.status.isOpen = true) (hleft : ctx.assertion.currentStatus ≠ .disputed)
    (reason : JsString) (note : Option JsString) (now : Nat) :
    ∃ f g, DisputeChange db ctx.dispute f g (noTransition db ctx reason note now).2 :=
  drop_change hkeyed ha hid hopen hleft
    (fun x =>
      { x with
        status := .resolvedNoTransition
        noTransitionReason := some reason
        resolvedAt := some now
        resolutionNote := note.or x.resolutionNote })
    (fun _ => ⟨rfl, rfl, rfl⟩) rfl (.same rfl rfl) .noTransition (by decide) _ _ _

theorem triage_change
    (hopened : ctx.dispute.status = .opened → ctx.assertion.currentStatus ≠ .disputed) (now : Nat) :
    (applyTriage db ctx now).2 = db ∨ ctx.dispute.status.isOpen = true ∧
      ∃ f g, DisputeChange db ctx.dispute f g (applyTriage db ctx now).2 := by
  unfold applyTriage
  by_cases hstatus : ctx.dispute.status = .opened
  · have hopen : ctx.dispute.status.isOpen = true := by rw [hstatus]; rfl
    have hnot := hopened hstatus
    rw [if_neg (not_not.mpr hstatus)]
    refine .inr ⟨hopen, ?_⟩
    cases hretired : ctx.assertion.currentStatus.retired with
    | true => exact noTransition_change hkeyed ha hid hopen hnot _ _ _
    | false =>
      rw [if_neg hnot, moveAssertion_of_eq hkeyed ha rfl]
      refine move_change db ctx.dispute
        (fun x => { x with status := .underReview, triagedAt := some now }) (fun _ => .disputed)
        .triaged ?_ ?_ ?_ (fun _ => ⟨rfl, rfl, rfl⟩) (edge_of_assertion hkeyed ha hid
          (fun _ => .disputed) ?_)
        (.same rfl rfl) _ _ _
      · exact ⟨rfl, rfl, rfl⟩
      · exact Nat.le_succ _
      · rw [← hid]
        rfl
      · rw [hstatus]
        exact .triage hretired
  · rw [if_pos hstatus]
    exact .inl rfl

theorem disposition_change
    (hreview : ctx.dispute.status = .underReview) (corrected : Bool) (note : JsString) (now : Nat) :
    ∃ f g, DisputeChange db ctx.dispute f g (applyDisposition db ctx corrected note now).2 := by
  have hopen : ctx.dispute.status.isOpen = true := by rw [hreview]; rfl
  unfold applyDisposition
  by_cases hdisputed : ctx.assertion.currentStatus = .disputed
  · rw [if_pos hdisputed, moveAssertion_of_eq hkeyed ha hdisputed]
    refine move_change db ctx.dispute
      (fun x =>
        { x with
          status := if corrected then .resolvedCorrected else .resolvedUpheld
          resolutionNote := some note
          resolvedAt := some now })
      (fun _ => if corrected then .revoked else .valid) (if corrected then .corrected else .upheld)
      ?_ ?_ ?_ (fun _ => ⟨rfl, rfl, rfl⟩)
      (edge_of_assertion hkeyed ha hid (fun _ =>
        if corrected then .revoked else .valid) ?_) ?_ _ _ _
    · exact ⟨rfl, rfl, rfl⟩
    · exact Nat.le_succ _
    · rw [← hid]
      rfl
    · rw [hdisputed, hreview]
      cases corrected with
      | true => exact .correct
      | false => exact .lift rfl
    · cases corrected <;> exact .same rfl rfl
  · rw [if_neg hdisputed]
    exact noTransition_change hkeyed ha hid hopen hdisputed _ _ _

theorem dispose_change
    {corrected : Bool} {note : JsString} {now : Nat} {out : DisputeActionResponse × GoldenDb}
    (h : applyDispose db ctx corrected note now = .ok out) :
    out.2 = db ∨ ctx.dispute.status.isOpen = true ∧
      ∃ f g, DisputeChange db ctx.dispute f g out.2 := by
  unfold applyDispose at h
  split at h
  · cases h
  case h_2 hreview =>
    obtain rfl := Except.ok.inj h
    exact .inr ⟨by rw [hreview]; rfl, disposition_change hkeyed ha hid hreview _ _ _⟩
  · obtain rfl := Except.ok.inj h
    exact .inl rfl

end

end

end

theorem extend_change {now : Nat} {out : DisputeActionResponse × GoldenDb}
    (h : applyExtend db ctx now = .ok out) : ∃ f g, DisputeChange db ctx.dispute f g out.2 := by
  simp only [applyExtend, bind_eq_ok, require_eq_ok, Option.isNone_iff_eq_none,
    Except.ok.injEq] at h
  obtain ⟨-, hunused, rfl⟩ := h
  exact move_change db ctx.dispute
    (fun x =>
      { x with
        reinvestigationDueAt :=
          ctx.dispute.reinvestigationDueAt + reinvestigationExtensionDays * msPerDay
        reinvestigationExtendedAt := some now })
    id .extended (.refl db) (Nat.le_refl _) (assertions_unchanged _) (fun _ => ⟨rfl, rfl, rfl⟩)
    (fun a _ _ => .stay _ _) (.extended hunused rfl rfl) _ _ _

end OfAssertion

end Actions

end AramoPlatform.Intelligence
