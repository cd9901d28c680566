import AramoPlatform.Intelligence.DisputeEffects

/-!
# Disputes follow their state machine

The invariant of the dispute tables over every run of the intelligence core,
and what a step does to the disputes that have ended. A question of a tenant
and an extension of the clock never look at the status of the dispute, so they
reach disputes that have ended; every other action stops there.
-/

namespace AramoPlatform.Intelligence

open Js Lib List

/-! ## What the record promises -/

/-- An assertion has one open dispute at most. -/
def OneOpenDispute (db : GoldenDb) : Prop :=
  ∀ d ∈ db.disputes, ∀ e ∈ db.disputes, d.assertionId = e.assertionId → d.status.isOpen = true →
    e.status.isOpen = true → d = e

/-- An assertion is disputed exactly while it is live and under review. -/
def DisputedUnderReview (db : GoldenDb) : Prop :=
  ∀ a ∈ db.assertions, a.currentStatus = .disputed ↔
    a.currentStatus.retired = false ∧
      ∃ d ∈ db.disputes, d.assertionId = a.id ∧ d.status = .underReview

namespace GoldenDb

variable (db : GoldenDb)

/-- `listEvents`. -/
def disputeEventsOf (disputeId : Nat) : List AssertionDisputeEvent :=
  db.disputeEvents.filter (·.disputeId == disputeId)

/-- How often the reinvestigation of a dispute was extended. -/
def extensionsOf (disputeId : Nat) : Nat :=
  (db.disputeEventsOf disputeId).countP (·.eventType == .extended)

end GoldenDb

/-- The due date is the one of the opening, extended once at most. -/
def ExtendedOnce (db : GoldenDb) : Prop :=
  ∀ d ∈ db.disputes, db.extensionsOf d.id ≤ 1 ∧
    d.reinvestigationDueAt = d.openedAt + 30 * msPerDay +
      db.extensionsOf d.id * (reinvestigationExtensionDays * msPerDay)

/-- A dispute that has ended keeps its row, its statements and its events. -/
def TerminalKept (db db' : GoldenDb) : Prop :=
  ∀ d ∈ db.disputes, d.status.isOpen = false → d ∈ db'.disputes ∧
    db'.statementsOf d.id = db.statementsOf d.id ∧
    db'.disputeEventsOf d.id = db.disputeEventsOf d.id

/-- A dispute is resolved as corrected in the step that revokes its assertion. -/
def CorrectedTogether (db db' : GoldenDb) : Prop :=
  ∀ d ∈ db'.disputes, d.status = .resolvedCorrected →
    (∃ e ∈ db.disputes, e.id = d.id ∧ e.status = .resolvedCorrected) ∨
      ∃ a ∈ db.assertions, a.id = d.assertionId ∧ a.currentStatus ≠ .revoked ∧
        { a with currentStatus := .revoked } ∈ db'.assertions

/-- The invariant behind them. -/
structure DisputesInOrder (db : GoldenDb) : Prop where
  assertions : Keyed (·.id) db.assertions db.nextId
  disputes : Keyed (·.id) db.disputes db.nextId
  known : ∀ d ∈ db.disputes, ∃ a ∈ db.assertions, a.id = d.assertionId
  single : OneOpenDispute db
  disputed : DisputedUnderReview db
  events : ∀ e ∈ db.disputeEvents, e.disputeId < db.nextId
  extensions : ∀ d ∈ db.disputes, db.extensionsOf d.id = d.extensions
  due : ∀ d ∈ db.disputes, d.reinvestigationDueAt = d.openedAt + 30 * msPerDay +
    d.extensions * (reinvestigationExtensionDays * msPerDay)

theorem AssertionDispute.extensions_le_one (d : AssertionDispute) : d.extensions ≤ 1 := by
  unfold AssertionDispute.extensions
  split <;> omega

namespace DisputesInOrder

variable {db db' : GoldenDb}

theorem empty : DisputesInOrder .empty :=
  ⟨⟨nodup_nil, by simp [GoldenDb.empty]⟩, ⟨nodup_nil, by simp [GoldenDb.empty]⟩,
    by simp [GoldenDb.empty], by simp [OneOpenDispute, GoldenDb.empty],
    by simp [DisputedUnderReview, GoldenDb.empty], by simp [GoldenDb.empty],
    by simp [GoldenDb.empty], by simp [GoldenDb.empty]⟩

theorem extendedOnce (h : DisputesInOrder db) : ExtendedOnce db := by
  intro d hd
  rw [h.extensions d hd]
  exact ⟨d.extensions_le_one, h.due d hd⟩

/-- An open dispute that is not under review leaves its assertion undisputed. -/
theorem ne_disputed_of_opened (h : DisputesInOrder db) {d : AssertionDispute}
    (hd : d ∈ db.disputes) {a : Assertion} (ha : a ∈ db.assertions) (hid : a.id = d.assertionId)
    (hopened : d.status = .opened) : a.currentStatus ≠ .disputed := by
  intro hdisputed
  obtain ⟨-, e, he, hassertion, hreview⟩ := (h.disputed a ha).mp hdisputed
  have hsame : d = e := h.single d hd e he (hid.symm.trans hassertion.symm)
    (by rw [hopened]; rfl) (by rw [hreview]; rfl)
  rw [hsame, hreview] at hopened
  cases hopened

end DisputesInOrder

/-! ## Steps outside the service -/

section Outside

variable {ingests : Bool} {db db' : GoldenDb}

theorem disputeEventsOf_eq (h : SameDisputes db db') (id : Nat) :
    db'.disputeEventsOf id = db.disputeEventsOf id := by
  unfold GoldenDb.disputeEventsOf
  rw [h.disputeEvents]

theorem disputed_outside (h : DisputesInOrder db) (hstep : OutsideStep ingests db db') :
    DisputedUnderReview db' := by
  intro x hx
  rw [hstep.disputes.disputes]
  rcases hstep.assertions.origin x hx with ⟨y, hy, hid, -, hstatus⟩ | ⟨hle, hnot⟩
  · have hold := h.disputed y hy
    rw [show x.id = y.id from hid]
    rcases hstatus with hsame | ⟨hlive, hnew⟩
    · rw [hsame]
      exact hold
    · rcases hnew with hretired | ⟨hynot, hxnot⟩
      · -- a retired assertion is not disputed
        constructor
        · intro hd
          rw [hd] at hretired
          cases hretired
        · intro hd
          rw [hretired] at hd
          cases hd.1
      · constructor
        · intro hd
          exact absurd hd hxnot
        · intro hd
          exact absurd (hold.mpr ⟨hlive, hd.2⟩) hynot
  · constructor
    · intro hd
      exact absurd hd hnot.1
    · -- no dispute is about an assertion that was not there
      rintro ⟨-, d, hd, hassertion, -⟩
      obtain ⟨a, ha, haid⟩ := h.known d hd
      have hlt := h.assertions.lt a ha
      have : a.id = x.id := haid.trans hassertion
      omega

theorem inOrder_outside (h : DisputesInOrder db) (hstep : OutsideStep ingests db db') :
    DisputesInOrder db' := by
  have hle := hstep.assertions.le
  have hdisputes := hstep.disputes.disputes
  refine ⟨hstep.assertions.keyed, ?_, ?_, ?_, disputed_outside h hstep, ?_, ?_, ?_⟩
  · rw [hdisputes]
    exact h.disputes.mono hle
  · intro d hd
    rw [hdisputes] at hd
    obtain ⟨a, ha, hid⟩ := h.known d hd
    obtain ⟨x, hx, hxid, -⟩ := hstep.assertions.stays a ha
    exact ⟨x, hx, hxid.trans hid⟩
  · unfold OneOpenDispute
    rw [hdisputes]
    exact h.single
  · intro e he
    rw [hstep.disputes.disputeEvents] at he
    exact Nat.lt_of_lt_of_le (h.events e he) hle
  · intro d hd
    rw [hdisputes] at hd
    rw [GoldenDb.extensionsOf, disputeEventsOf_eq hstep.disputes]
    exact h.extensions d hd
  · rw [hdisputes]
    exact h.due

theorem terminalKept_of_same (h : SameDisputes db db') : TerminalKept db db' := by
  intro d hd _
  refine ⟨by rw [h.disputes]; exact hd, ?_, disputeEventsOf_eq h d.id⟩
  unfold GoldenDb.statementsOf
  rw [h.statements]

theorem correctedTogether_of_same (h : db'.disputes = db.disputes) : CorrectedTogether db db' := by
  intro d hd hcorrected
  rw [h] at hd
  exact .inl ⟨d, hd, rfl, hcorrected⟩

end Outside

/-! ## Steps on one dispute -/

section Changed

variable {db db' : GoldenDb} {d : AssertionDispute} {f : AssertionDispute → AssertionDispute}
  {g : AssertionStatus → AssertionStatus}

theorem mem_changed (h : DisputesInOrder db) (hd : d ∈ db.disputes)
    (hchange : DisputeChange db d f g db') {x : AssertionDispute} :
    x ∈ db'.disputes ↔ x ∈ db.disputes ∧ x.id ≠ d.id ∨ x = f d := by
  rw [hchange.disputes]
  exact mem_updateWhere_key h.disputes.nodup hd

theorem mem_changed_assertions (h : DisputesInOrder db) (hchange : DisputeChange db d f g db')
    {a : Assertion} (ha : a ∈ db.assertions) (hid : a.id = d.assertionId) {x : Assertion} :
    x ∈ db'.assertions ↔ x ∈ db.assertions ∧ x.id ≠ d.assertionId ∨
      x = { a with currentStatus := g a.currentStatus } := by
  rw [hchange.assertions, ← hid]
  exact mem_updateWhere_key h.assertions.nodup ha

theorem open_of_edge {a a' : AssertionStatus} {s s' : DisputeStatus} (h : DisputeEdge a s a' s')
    (hopen : s.isOpen = true ∨ s'.isOpen = true) : s.isOpen = true := by
  cases h with
  | stay => exact hopen.elim id id
  | triage => rfl
  | drop hopen' => exact hopen'
  | lift => rfl
  | correct => rfl

theorem single_changed (h : DisputesInOrder db) (hd : d ∈ db.disputes)
    (hchange : DisputeChange db d f g db') : OneOpenDispute db' := by
  obtain ⟨a, ha, hid⟩ := h.known d hd
  have hedge := hchange.edge a ha hid
  have hassertion := (hchange.same d).assertionId
  -- an old dispute that is open with the changed one is the changed one
  have hclash : ∀ x ∈ db.disputes, x.id ≠ d.id → x.assertionId = (f d).assertionId →
      x.status.isOpen = true → (f d).status.isOpen = true → False := by
    intro x hx hne hsame hxopen hfopen
    have hdopen := open_of_edge hedge (.inr hfopen)
    exact hne (congrArg (·.id) (h.single x hx d hd (hsame.trans hassertion) hxopen hdopen))
  intro x hx y hy hsame hxopen hyopen
  rcases (mem_changed h hd hchange).mp hx with ⟨hx, hxne⟩ | rfl
  · rcases (mem_changed h hd hchange).mp hy with ⟨hy, -⟩ | rfl
    · exact h.single x hx y hy hsame hxopen hyopen
    · exact (hclash x hx hxne hsame hxopen hyopen).elim
  · rcases (mem_changed h hd hchange).mp hy with ⟨hy, hyne⟩ | rfl
    · exact (hclash y hy hyne hsame.symm hyopen hxopen).elim
    · rfl

theorem disputed_of_edge {a a' : AssertionStatus} {s s' : DisputeStatus}
    (h : DisputeEdge a s a' s') (hopen : s.isOpen = true)
    (hold : a = .disputed ↔ a.retired = false ∧ s = .underReview) :
    a' = .disputed ↔ a'.retired = false ∧ s' = .underReview := by
  cases h with
  | stay => exact hold
  | triage | correct => simp [AssertionStatus.retired]
  | drop _ hnot hend =>
    constructor
    · intro hd
      exact absurd hd hnot
    · rintro ⟨-, rfl⟩
      cases hend
  | lift hend =>
    constructor
    · intro hd
      cases hd
    · rintro ⟨-, rfl⟩
      cases hend

theorem review_iff (h : DisputesInOrder db) (hd : d ∈ db.disputes) (hopen :
    d.status.isOpen = true) :
    (∃ e ∈ db.disputes, e.assertionId = d.assertionId ∧ e.status = .underReview) ↔
      d.status = .underReview := by
  constructor
  · rintro ⟨e, he, hassertion, hreview⟩
    have hsame : e = d := h.single e he d hd hassertion (by rw [hreview]; rfl) hopen
    rw [← hsame, hreview]
  · intro hreview
    exact ⟨d, hd, rfl, hreview⟩

theorem disputed_changed (h : DisputesInOrder db) (hd : d ∈ db.disputes)
    (hopen : d.status.isOpen = true) (hchange : DisputeChange db d f g db') :
    DisputedUnderReview db' := by
  obtain ⟨a, ha, hid⟩ := h.known d hd
  have hassertion := (hchange.same d).assertionId
  intro x hx
  rcases (mem_changed_assertions h hchange ha hid).mp hx with ⟨hx, hne⟩ | rfl
  · -- another assertion: its disputes are the same
    rw [h.disputed x hx]
    refine and_congr_right fun _ => ?_
    constructor
    · rintro ⟨e, he, hex, hreview⟩
      refine ⟨e, (mem_changed h hd hchange).mpr (.inl ⟨he, fun hid => hne ?_⟩), hex, hreview⟩
      rw [← hex, inj_on_of_nodup_map h.disputes.nodup he hd hid]
    · rintro ⟨e, he, hex, hreview⟩
      rcases (mem_changed h hd hchange).mp he with ⟨he, -⟩ | rfl
      · exact ⟨e, he, hex, hreview⟩
      · exact absurd (hex.symm.trans hassertion) hne
  · have hold := h.disputed a ha
    rw [show (∃ e ∈ db.disputes, e.assertionId = a.id ∧ e.status = .underReview) ↔
      d.status = .underReview by rw [hid]; exact review_iff h hd hopen] at hold
    refine (disputed_of_edge (hchange.edge a ha hid) hopen hold).trans (and_congr_right fun _ => ?_)
    constructor
    · intro hreview
      exact ⟨f d, (mem_changed h hd hchange).mpr (.inr rfl), hassertion.trans hid.symm, hreview⟩
    · rintro ⟨e, he, hex, hreview⟩
      rcases (mem_changed h hd hchange).mp he with ⟨he, hene⟩ | rfl
      · have hsame := h.single e he d hd (hex.trans hid) (by rw [hreview]; rfl) hopen
        exact absurd (congrArg (·.id) hsame) hene
      · exact hreview

theorem clock_changed {n : Nat} (hclock : ClockStep d (f d) n) (hopened :
    (f d).openedAt = d.openedAt)
    (hdue : d.reinvestigationDueAt = d.openedAt + 30 * msPerDay +
      d.extensions * (reinvestigationExtensionDays * msPerDay)) :
    (f d).extensions = d.extensions + n ∧ (f d).reinvestigationDueAt = (f d).openedAt +
      30 * msPerDay + (f d).extensions * (reinvestigationExtensionDays * msPerDay) := by
  cases hclock with
  | same hsame hext =>
    have hcount : (f d).extensions = d.extensions := by
      unfold AssertionDispute.extensions
      rw [hext]
    exact ⟨hcount, by rw [hsame, hdue, hopened, hcount]⟩
  | extended hunused hused hafter =>
    have hnone : d.extensions = 0 := by simp [AssertionDispute.extensions, hunused]
    have hone : (f d).extensions = 1 := by simp [AssertionDispute.extensions, hused]
    refine ⟨by omega, ?_⟩
    rw [hafter, hdue, hopened, hnone, hone]
    omega

theorem extensionsOf_changed (hchange : DisputeChange db d f g db') :
    ∃ n, ClockStep d (f d) n ∧ db'.extensionsOf d.id = db.extensionsOf d.id + n ∧
      ∀ id, id ≠ d.id → db'.disputeEventsOf id = db.disputeEventsOf id := by
  obtain ⟨noted, hnoted, hown, hclock⟩ := hchange.events
  refine ⟨_, hclock, ?_, fun id hne => ?_⟩
  · unfold GoldenDb.extensionsOf GoldenDb.disputeEventsOf
    have hall : noted.filter (·.disputeId == d.id) = noted :=
      filter_eq_self.mpr fun e he => beq_iff_eq.mpr (hown e he)
    rw [hnoted, filter_append, countP_append, hall]
  · unfold GoldenDb.disputeEventsOf
    have hnone : noted.filter (·.disputeId == id) = [] := by
      refine filter_eq_nil_iff.mpr fun e he => ?_
      rw [hown e he, beq_iff_eq]
      exact Ne.symm hne
    rw [hnoted, filter_append, hnone, append_nil]

theorem inOrder_changed (h : DisputesInOrder db) (hd : d ∈ db.disputes)
    (hopen : d.status.isOpen = true) (hchange : DisputeChange db d f g db') :
    DisputesInOrder db' := by
  obtain ⟨n, hclock, hcount, hothers⟩ := extensionsOf_changed hchange
  obtain ⟨hext, hdue⟩ := clock_changed hclock (hchange.same d).openedAt (h.due d hd)
  have hfid : (f d).id = d.id := (hchange.same d).id
  refine ⟨?_, ?_, ?_, single_changed h hd hchange, disputed_changed h hd hopen hchange, ?_, ?_, ?_⟩
  · rw [hchange.assertions]
    refine (h.assertions.update ?_).mono hchange.next
    exact fun _ => rfl
  · rw [hchange.disputes]
    exact (h.disputes.update fun x => (hchange.same x).id).mono hchange.next
  · intro x hx
    have hof : ∃ y ∈ db.disputes, y.assertionId = x.assertionId := by
      rcases (mem_changed h hd hchange).mp hx with ⟨hx, -⟩ | rfl
      · exact ⟨x, hx, rfl⟩
      · exact ⟨d, hd, (hchange.same d).assertionId.symm⟩
    obtain ⟨y, hy, hyx⟩ := hof
    obtain ⟨a, ha, hid⟩ := h.known y hy
    rw [hchange.assertions]
    exact exists_updateWhere ha (fun _ => hid.trans hyx) fun _ => hid.trans hyx
  · intro e he
    obtain ⟨noted, hnoted, hown, -⟩ := hchange.events
    rw [hnoted] at he
    refine Nat.lt_of_lt_of_le ?_ hchange.next
    rcases mem_append.mp he with he | he
    · exact h.events e he
    · rw [hown e he]
      exact h.disputes.lt d hd
  · intro x hx
    rcases (mem_changed h hd hchange).mp hx with ⟨hx, hne⟩ | rfl
    · rw [GoldenDb.extensionsOf, hothers x.id hne]
      exact h.extensions x hx
    · rw [hfid, hcount, h.extensions d hd, hext]
  · intro x hx
    rcases (mem_changed h hd hchange).mp hx with ⟨hx, -⟩ | rfl
    · exact h.due x hx
    · exact hdue

theorem terminalKept_changed (h : DisputesInOrder db) (hd : d ∈ db.disputes)
    (hopen : d.status.isOpen = true) (hchange : DisputeChange db d f g db') :
    TerminalKept db db' := by
  obtain ⟨_, -, -, hothers⟩ := extensionsOf_changed hchange
  intro x hx hended
  have hne : x.id ≠ d.id := by
    intro hid
    rw [inj_on_of_nodup_map h.disputes.nodup hx hd hid, hopen] at hended
    cases hended
  refine ⟨(mem_changed h hd hchange).mpr (.inl ⟨hx, hne⟩), ?_, hothers x.id hne⟩
  obtain ⟨said, hsaid, hown⟩ := hchange.statements
  unfold GoldenDb.statementsOf
  have hnone : said.filter (·.disputeId == x.id) = [] := by
    refine filter_eq_nil_iff.mpr fun s hs => ?_
    rw [hown s hs, beq_iff_eq]
    exact Ne.symm hne
  rw [hsaid, filter_append, hnone, append_nil]

theorem correctedTogether_changed (h : DisputesInOrder db) (hd : d ∈ db.disputes)
    (hchange : DisputeChange db d f g db') : CorrectedTogether db db' := by
  intro x hx hcorrected
  rcases (mem_changed h hd hchange).mp hx with ⟨hx, -⟩ | rfl
  · exact .inl ⟨x, hx, rfl, hcorrected⟩
  · obtain ⟨a, ha, hid⟩ := h.known d hd
    have hedge := hchange.edge a ha hid
    have hmem : { a with currentStatus := g a.currentStatus } ∈ db'.assertions :=
      (mem_changed_assertions h hchange ha hid).mpr (.inr rfl)
    rw [hcorrected] at hedge
    generalize hbefore : a.currentStatus = before at hedge hmem
    generalize hafter : g before = after at hedge hmem
    generalize hstatus : d.status = status at hedge
    cases hedge with
    | stay => exact .inl ⟨d, hd, ((hchange.same d).id).symm, hstatus⟩
    | drop _ _ hend | lift hend => cases hend
    | correct =>
      refine .inr ⟨a, ha, hid.trans (hchange.same d).assertionId.symm, ?_, hmem⟩
      rw [hbefore]
      exact AssertionStatus.noConfusion

end Changed

/-! ## A new dispute -/

/-- A dispute is opened on a live assertion that has none open. -/
structure DisputeOpened (db : GoldenDb) (row : AssertionDispute) (db' : GoldenDb) : Prop where
  id : row.id = db.nextId
  status : row.status = .opened
  unextended : row.reinvestigationExtendedAt = none
  due : row.reinvestigationDueAt = row.openedAt + 30 * msPerDay
  known : ∃ a ∈ db.assertions, a.id = row.assertionId
  noneOpen : ∀ d ∈ db.disputes, d.assertionId = row.assertionId → d.status.isOpen = false
  disputes : db'.disputes = db.disputes ++ [row]
  assertions : db'.assertions = db.assertions
  statements : ∃ said, db'.statements = db.statements ++ said ∧ ∀ s ∈ said, s.disputeId = row.id
  events : ∃ noted, db'.disputeEvents = db.disputeEvents ++ noted ∧ ∀ e ∈ noted,
    e.disputeId = row.id ∧ e.eventType ≠ .extended
  next : db.nextId < db'.nextId

section Opened

variable {db db' : GoldenDb} {row : AssertionDispute}

theorem mem_opened (h : DisputeOpened db row db') {x : AssertionDispute} :
    x ∈ db'.disputes ↔ x ∈ db.disputes ∨ x = row := by
  rw [h.disputes, mem_append, mem_singleton]

theorem single_opened (h : DisputesInOrder db) (hopened : DisputeOpened db row db') :
    OneOpenDispute db' := by
  intro x hx y hy hsame hxopen hyopen
  rcases (mem_opened hopened).mp hx with hx | rfl
  · rcases (mem_opened hopened).mp hy with hy | rfl
    · exact h.single x hx y hy hsame hxopen hyopen
    · rw [hopened.noneOpen x hx hsame] at hxopen
      cases hxopen
  · rcases (mem_opened hopened).mp hy with hy | rfl
    · rw [hopened.noneOpen y hy hsame.symm] at hyopen
      cases hyopen
    · rfl

theorem disputed_opened (h : DisputesInOrder db) (hopened : DisputeOpened db row db') :
    DisputedUnderReview db' := by
  intro x hx
  rw [hopened.assertions] at hx
  rw [h.disputed x hx]
  refine and_congr_right fun _ => ?_
  constructor
  · rintro ⟨e, he, hassertion, hreview⟩
    exact ⟨e, (mem_opened hopened).mpr (.inl he), hassertion, hreview⟩
  · rintro ⟨e, he, hassertion, hreview⟩
    rcases (mem_opened hopened).mp he with he | rfl
    · exact ⟨e, he, hassertion, hreview⟩
    · rw [hopened.status] at hreview
      cases hreview

theorem disputeEventsOf_opened (hopened : DisputeOpened db row db') {id : Nat} (hne : id ≠ row.id) :
    db'.disputeEventsOf id = db.disputeEventsOf id := by
  obtain ⟨noted, hnoted, hown⟩ := hopened.events
  unfold GoldenDb.disputeEventsOf
  have hnone : noted.filter (·.disputeId == id) = [] := by
    refine filter_eq_nil_iff.mpr fun e he => ?_
    rw [(hown e he).1, beq_iff_eq]
    exact Ne.symm hne
  rw [hnoted, filter_append, hnone, append_nil]

theorem extensionsOf_opened (h : DisputesInOrder db) (hopened : DisputeOpened db row db') :
    db'.extensionsOf row.id = 0 := by
  obtain ⟨noted, hnoted, hown⟩ := hopened.events
  unfold GoldenDb.extensionsOf GoldenDb.disputeEventsOf
  rw [hnoted, countP_eq_zero]
  intro e he
  obtain ⟨hmem, hid⟩ := mem_filter.mp he
  rcases mem_append.mp hmem with hmem | hmem
  · have hlt := h.events e hmem
    have heq := eq_of_beq hid
    rw [hopened.id] at heq
    omega
  · rw [beq_iff_eq]
    exact (hown e hmem).2

theorem inOrder_opened (h : DisputesInOrder db) (hopened : DisputeOpened db row db') :
    DisputesInOrder db' := by
  have hle : db.nextId ≤ db'.nextId := Nat.le_of_lt hopened.next
  refine ⟨?_, ?_, ?_, single_opened h hopened, disputed_opened h hopened, ?_, ?_, ?_⟩
  · rw [hopened.assertions]
    exact h.assertions.mono hle
  · rw [hopened.disputes]
    exact (h.disputes.insert hopened.id).mono hopened.next
  · intro x hx
    rw [hopened.assertions]
    rcases (mem_opened hopened).mp hx with hx | rfl
    · exact h.known x hx
    · exact hopened.known
  · intro e he
    obtain ⟨noted, hnoted, hown⟩ := hopened.events
    rw [hnoted] at he
    rcases mem_append.mp he with he | he
    · exact Nat.lt_of_lt_of_le (h.events e he) hle
    · rw [(hown e he).1, hopened.id]
      exact hopened.next
  · intro x hx
    rcases (mem_opened hopened).mp hx with hx | rfl
    · have hne : x.id ≠ row.id := by
        have := h.disputes.lt x hx
        rw [hopened.id]
        omega
      rw [GoldenDb.extensionsOf, disputeEventsOf_opened hopened hne]
      exact h.extensions x hx
    · rw [extensionsOf_opened h hopened]
      simp [AssertionDispute.extensions, hopened.unextended]
  · intro x hx
    rcases (mem_opened hopened).mp hx with hx | rfl
    · exact h.due x hx
    · simp [AssertionDispute.extensions, hopened.unextended, hopened.due]

theorem terminalKept_opened (h : DisputesInOrder db) (hopened : DisputeOpened db row db') :
    TerminalKept db db' := by
  intro x hx _
  have hne : x.id ≠ row.id := by
    have := h.disputes.lt x hx
    rw [hopened.id]
    omega
  refine ⟨(mem_opened hopened).mpr (.inl hx), ?_, disputeEventsOf_opened hopened hne⟩
  obtain ⟨said, hsaid, hown⟩ := hopened.statements
  unfold GoldenDb.statementsOf
  have hnone : said.filter (·.disputeId == x.id) = [] := by
    refine filter_eq_nil_iff.mpr fun s hs => ?_
    rw [hown s hs, beq_iff_eq]
    exact Ne.symm hne
  rw [hsaid, filter_append, hnone, append_nil]

theorem correctedTogether_opened (hopened : DisputeOpened db row db') :
    CorrectedTogether db db' := by
  intro x hx hcorrected
  rcases (mem_opened hopened).mp hx with hx | rfl
  · exact .inl ⟨x, hx, rfl, hcorrected⟩
  · rw [hopened.status] at hcorrected
    cases hcorrected

end Opened

/-! ## Every step -/

/-- What a step does to the disputes. -/
inductive DisputeEffect (db : GoldenDb) : GoldenDb → Prop
  | outside {ingests : Bool} {db' : GoldenDb} (hstep : OutsideStep ingests db db') :
      DisputeEffect db db'
  | opened {row : AssertionDispute} {db' : GoldenDb} (hopened : DisputeOpened db row db') :
      DisputeEffect db db'
  | changed {d : AssertionDispute} {f : AssertionDispute → AssertionDispute}
      {g : AssertionStatus → AssertionStatus} {db' : GoldenDb} (hd : d ∈ db.disputes)
      (hopen : d.status.isOpen = true) (hchange : DisputeChange db d f g db') : DisputeEffect db db'

variable {db db' : GoldenDb}

/-- What a step leaves in order, of the disputes that have ended and of those it corrects. -/
theorem kept_of_effect (h : DisputesInOrder db) (heffect : DisputeEffect db db') :
    DisputesInOrder db' ∧ TerminalKept db db' ∧ CorrectedTogether db db' := by
  cases heffect with
  | outside hstep =>
    exact ⟨inOrder_outside h hstep, terminalKept_of_same hstep.disputes,
      correctedTogether_of_same hstep.disputes.disputes⟩
  | opened hopened =>
    exact ⟨inOrder_opened h hopened, terminalKept_opened h hopened,
      correctedTogether_opened hopened⟩
  | changed hd hopen hchange =>
    exact ⟨inOrder_changed h hd hopen hchange, terminalKept_changed h hd hopen hchange,
      correctedTogether_changed h hd hchange⟩

section Service

variable {host : Host} {db db' : GoldenDb}

theorem mem_of_dispute? {id : Nat} {d : AssertionDispute} (h : db.dispute? id = some d) :
    d ∈ db.disputes :=
  mem_of_find?_eq_some h

theorem effect_none (h : DisputesInOrder db) : DisputeEffect db db :=
  .outside (OutsideStep.refl h.assertions : OutsideStep false db db)

theorem effect_openFor (h : DisputesInOrder db) (reference : ExternalTalentReference)
    {a : Assertion} (ha : a ∈ db.assertions) (statement : JsString) (now : Nat) :
    DisputeEffect db (openFor host db reference a statement now).2 := by
  unfold openFor
  cases hopen : db.openDisputeOf? a.id with
  | some existing => exact effect_none h
  | none =>
    let row := { newDispute now a.id reference.id with id := db.nextId }
    refine .opened (?_ : DisputeOpened db row _)
    refine ⟨rfl, rfl, rfl, rfl, ⟨a, ha, rfl⟩, ?_,
      rfl, rfl, ⟨_, rfl, by simp [row]⟩, ⟨_, rfl, ?_⟩, ?_⟩
    · intro d hd hassertion
      have hnot := find?_eq_none.mp hopen d hd
      rw [show d.assertionId = a.id from hassertion, beq_self_eq_true, Bool.true_and] at hnot
      simpa using hnot
    · intro e he
      obtain rfl := mem_singleton.mp he
      exact ⟨rfl, DisputeEventType.noConfusion⟩
    · show db.nextId < db.nextId + 1 + 1 + 1
      omega

variable {principal : IngestPrincipal} {view : PortalDisputeView}

theorem effect_openDispute {req : OpenDisputeRequest} {now : Nat}
    (h : DisputesInOrder db)
    (hstep : openDispute host db req principal now = .ok (view, db')) : DisputeEffect db db' := by
  simp only [openDispute, bind_eq_ok, Except.ok.injEq] at hstep
  obtain ⟨⟨reference, subject⟩, -, a, howned, -, -, hout⟩ := hstep
  have hdb := (Prod.ext_iff.mp hout).2
  rw [show db' = (openFor host db reference a req.statement now).2 from hdb.symm]
  exact effect_openFor h reference (mem_of_ownedAssertion howned).1 _ _

theorem mem_of_portalDispute {id subjectId : Nat} {d : AssertionDispute} {a : Assertion}
    (h : portalDispute db id subjectId = .ok (d, a)) :
    d ∈ db.disputes ∧ a ∈ db.assertions ∧ a.id = d.assertionId := by
  simp only [portalDispute, bind_eq_ok, orThrow_eq_ok, Except.ok.injEq, Prod.mk.injEq] at h
  obtain ⟨d', hfind, a', howned, rfl, rfl⟩ := h
  exact ⟨mem_of_dispute? hfind, mem_of_ownedAssertion howned⟩

theorem effect_respond {id : Nat} {portalContext : SourceTuple} {statement : JsString}
    (h : DisputesInOrder db)
    (hstep : respond host db id portalContext statement principal = .ok (view, db')) :
    DisputeEffect db db' := by
  simp only [respond, bind_eq_ok, require_eq_ok, Except.ok.injEq] at hstep
  obtain ⟨⟨reference, subject⟩, -, ⟨d, a⟩, hread, -, hopen, hout⟩ := hstep
  have hdb := (Prod.ext_iff.mp hout).2
  obtain ⟨hd, -, -⟩ := mem_of_portalDispute hread
  rw [show db' = addResponse host db reference d statement from hdb.symm]
  unfold addResponse
  split
  · exact effect_none h
  · exact .changed hd hopen
      (talk_change .talent statement DisputeEventType.noConfusion _ _ _)

theorem effect_withdraw {id : Nat} {portalContext : SourceTuple} {actor : Option JsString}
    {now : Nat} (h : DisputesInOrder db)
    (hstep : withdraw db id portalContext actor principal now = .ok (view, db')) :
    DisputeEffect db db' := by
  simp only [withdraw, bind_eq_ok, Except.ok.injEq] at hstep
  obtain ⟨⟨reference, subject⟩, -, ⟨d, a⟩, hread, hout⟩ := hstep
  have hdb := (Prod.ext_iff.mp hout).2
  dsimp only at hdb
  obtain ⟨hd, ha, hid⟩ := mem_of_portalDispute hread
  rw [← hdb]
  cases hopen : d.status.isOpen with
  | true =>
    obtain ⟨f, g, hchange⟩ := withdraw_change h.assertions ha hid hopen
      (h.ne_disputed_of_opened hd ha hid) _ now
    exact .changed hd hopen hchange
  | false =>
    rw [applyWithdraw, hopen]
    exact effect_none h

theorem mem_of_tenantContext {crossTenant : Bool}
    {sourceTenantId actor : JsString} {id : Nat} {ctx : TenantContext}
    (h : tenantContext db crossTenant principal sourceTenantId actor id = .ok ctx) :
    db.dispute? id = some ctx.dispute ∧ ctx.assertion ∈ db.assertions ∧
      ctx.assertion.id = ctx.dispute.assertionId := by
  simp only [tenantContext, bind_eq_ok, orThrow_eq_ok, Except.ok.injEq] at h
  obtain ⟨-, -, d, hd, a, ha, -, -, -, -, -, -, rfl⟩ := h
  exact ⟨hd, mem_of_assertion? ha⟩

end Service

/-- A question or an extension is about an open dispute. -/
def threadOpen (db : GoldenDb) : GoldenOp → Bool
  | .disputeAction _ _ _ id (.requestInfo _) _ | .disputeAction _ _ _ id .extend _ =>
      (db.dispute? id).all (·.status.isOpen)
  | _ => true

def ThreadOpen (db : GoldenDb) (op : GoldenOp) : Prop := threadOpen db op = true

theorem effect_disputeAction {env : GoldenEnv} {principal : IngestPrincipal}
    {sourceTenantId actor : JsString} {id : Nat} {action : TenantAction} {now : Nat}
    {response : DisputeActionResponse} (h : DisputesInOrder db)
    (hopen : ThreadOpen db (.disputeAction principal sourceTenantId actor id action now))
    (hstep : tenantAction env.host db env.crossTenant principal sourceTenantId actor id action now =
      .ok (response, db')) : DisputeEffect db db' := by
  simp only [tenantAction, bind_eq_ok] at hstep
  obtain ⟨ctx, hctx, hstep⟩ := hstep
  obtain ⟨hfind, ha, hid⟩ := mem_of_tenantContext hctx
  have hd := mem_of_dispute? hfind
  -- an action on the status answers for itself; a talk or a clock is guarded
  have hof : ∀ out : GoldenDb, (out = db ∨ ctx.dispute.status.isOpen = true ∧
      ∃ f g, DisputeChange db ctx.dispute f g out) → DisputeEffect db out := by
    rintro out (rfl | ⟨hdopen, f, g, hchange⟩)
    · exact effect_none h
    · exact .changed hd hdopen hchange
  cases action with
  | triage =>
    have hdb := (Prod.ext_iff.mp (Except.ok.inj hstep)).2
    dsimp only at hdb
    rw [← hdb]
    exact hof _ (triage_change h.assertions ha hid (h.ne_disputed_of_opened hd ha hid) now)
  | requestInfo note =>
    have hdb := (Prod.ext_iff.mp (Except.ok.inj hstep)).2
    dsimp only at hdb
    rw [← hdb]
    refine .changed hd ?_ (talk_change .tenant note DisputeEventType.noConfusion _ _ _)
    simpa [ThreadOpen, threadOpen, hfind] using hopen
  | correct | uphold => exact hof _ (dispose_change h.assertions ha hid hstep)
  | extend =>
    refine hof _ (.inr ⟨?_, extend_change hstep⟩)
    simpa [ThreadOpen, threadOpen, hfind] using hopen

theorem effect_of_step {env : GoldenEnv} {op : GoldenOp}
    (h : DisputesInOrder db) (hstep : Guarded (GoldenStep env) ThreadOpen db op db') :
    DisputeEffect db db' := by
  obtain ⟨hstep, hopen⟩ := hstep
  cases hop : op.disputes with
  | false => exact .outside (outside_of_step h.assertions hop hstep)
  | true =>
    cases op with
    | openDispute =>
      obtain ⟨out, hout, rfl⟩ := map_eq_ok.mp hstep
      exact effect_openDispute h hout
    | respond =>
      obtain ⟨out, hout, rfl⟩ := map_eq_ok.mp hstep
      exact effect_respond h hout
    | withdraw =>
      obtain ⟨out, hout, rfl⟩ := map_eq_ok.mp hstep
      exact effect_withdraw h hout
    | disputeAction =>
      obtain ⟨out, hout, rfl⟩ := map_eq_ok.mp hstep
      exact effect_disputeAction h hopen hout
    | ingest | erase | createVerification | confirm | relink | rebuild | resolveContradiction
    | merge | split | restore | entitle => cases hop

/-! ## Runs -/

section Runs

variable {env : GoldenEnv}

theorem inOrder_of_step (db : GoldenDb) (op : GoldenOp) (db' : GoldenDb) (h : DisputesInOrder db)
    (hstep : Guarded (GoldenStep env) ThreadOpen db op db') : DisputesInOrder db' :=
  (kept_of_effect h (effect_of_step h hstep)).1

theorem terminalKept_of_step (db : GoldenDb) (op : GoldenOp) (db' : GoldenDb)
    (h : DisputesInOrder db) (hstep : Guarded (GoldenStep env) ThreadOpen db op db') :
    TerminalKept db db' :=
  (kept_of_effect h (effect_of_step h hstep)).2.1

theorem inOrder_of_run {ops : List GoldenOp} {db : GoldenDb}
    (h : Run (Guarded (GoldenStep env) ThreadOpen) .empty ops db) : DisputesInOrder db :=
  h.invariant inOrder_of_step .empty

theorem TerminalKept.refl (db : GoldenDb) : TerminalKept db db :=
  fun _ hd _ => ⟨hd, rfl, rfl⟩

theorem TerminalKept.trans {a b c : GoldenDb} (h : TerminalKept a b) (h' : TerminalKept b c) :
    TerminalKept a c := by
  intro d hd hended
  obtain ⟨hd', hsaid, hnoted⟩ := h d hd hended
  obtain ⟨hd'', hsaid', hnoted'⟩ := h' d hd' hended
  exact ⟨hd'', hsaid'.trans hsaid, hnoted'.trans hnoted⟩

theorem terminalKept_of_run {ops : List GoldenOp} {mid db : GoldenDb} (hmid : DisputesInOrder mid)
    (h : Run (Guarded (GoldenStep env) ThreadOpen) mid ops db) : TerminalKept mid db :=
  h.related TerminalKept.refl (fun _ _ _ => TerminalKept.trans) inOrder_of_step
    terminalKept_of_step hmid

/-- **Disputes follow their state machine** in every run in which a question
or an extension is about an open dispute. -/
theorem disputes_follow_their_machine {pre post : List GoldenOp} {mid db : GoldenDb}
    (hpre : Run (Guarded (GoldenStep env) ThreadOpen) .empty pre mid)
    (hpost : Run (Guarded (GoldenStep env) ThreadOpen) mid post db) :
    OneOpenDispute mid ∧ DisputedUnderReview mid ∧ ExtendedOnce mid ∧ TerminalKept mid db ∧
      ∀ op next, Guarded (GoldenStep env) ThreadOpen mid op next → CorrectedTogether mid next := by
  have hmid := inOrder_of_run hpre
  refine ⟨hmid.single, hmid.disputed, hmid.extendedOnce, terminalKept_of_run hmid hpost, ?_⟩
  intro op next hstep
  exact (kept_of_effect hmid (effect_of_step hmid hstep)).2.2

end Runs

/-! ### Two disputes about one claim -/

/-- An action of the tenant on a dispute. -/
def recruiterActs (id : Nat) (action : TenantAction) (time : Nat) : GoldenOp :=
  .disputeAction anAts (js "T1") (js "recruiter") id action time

/-- A dispute that was reviewed and asked about, and that its talent withdrew; then another. -/
def reviewedDispute : List GoldenOp :=
  [.entitle ann.tenant true, .ingest (nameSnapshot ann "e1") anAts 0,
    .openDispute ⟨ann, 2, js "not mine"⟩ anAts 1, recruiterActs 4 .triage 2,
    recruiterActs 4 (.requestInfo (js "which one")) 3, recruiterActs 4 .extend 4,
    .withdraw 4 ann none anAts 5, .openDispute ⟨ann, 2, js "not mine at all"⟩ anAts 6]

/-- The other one is reviewed, extended and leads to a correction. -/
def correctedDispute : List GoldenOp :=
  [recruiterActs 14 .triage 7, recruiterActs 14 .extend 8,
    recruiterActs 14 (.correct (js "removed")) 9]

/-- The rule at work on a withdrawn dispute, while another one is corrected. -/
theorem disputes_follow_their_machine_when_withdrawn :
    ∃ mid db, Run (Guarded (GoldenStep plainEnv) ThreadOpen) .empty reviewedDispute mid ∧
      Run (Guarded (GoldenStep plainEnv) ThreadOpen) mid correctedDispute db ∧
      (mid.disputes.map (·.status) = [.withdrawn, .opened] ∧
        db.disputes.map (·.status) = [.withdrawn, .resolvedCorrected]) ∧
      OneOpenDispute mid ∧ DisputedUnderReview mid ∧ ExtendedOnce mid ∧ TerminalKept mid db ∧
        ∀ op next, Guarded (GoldenStep plainEnv) ThreadOpen mid op next →
          CorrectedTogether mid next := by
  obtain ⟨mid, hpre, hmid⟩ := guardedRun_of_exec _ (goldenStep_of_next plainEnv) ThreadOpen
    threadOpen (fun _ _ h => h) .empty reviewedDispute (fun mid =>
      mid.disputes.map (·.status) == [.withdrawn, .opened] &&
      (exec (fun db op => if threadOpen db op then goldenNext plainEnv db op else none) mid
        correctedDispute).any fun db =>
          db.disputes.map (·.status) == [.withdrawn, .resolvedCorrected]) (by decide +kernel)
  obtain ⟨hstatus, hmid⟩ := Bool.and_eq_true_iff.mp hmid
  obtain ⟨db, hpost, hdb⟩ := guardedRun_of_exec _ (goldenStep_of_next plainEnv) ThreadOpen
    threadOpen (fun _ _ h => h) mid correctedDispute _ hmid
  exact ⟨mid, db, hpre, hpost, ⟨eq_of_beq hstatus, eq_of_beq hdb⟩,
    disputes_follow_their_machine hpre hpost⟩

/-! ### A question after the end -/

/-- A dispute that its talent withdrew. -/
def withdrawnDispute : List GoldenOp :=
  [.entitle ann.tenant true, .ingest (nameSnapshot ann "e1") anAts 0,
    .openDispute ⟨ann, 2, js "not mine"⟩ anAts 1, recruiterActs 4 (.requestInfo (js "which one")) 2,
    .withdraw 4 ann none anAts 3]

/-- A question of the tenant on it. -/
def lateQuestion : GoldenOp := recruiterActs 4 (.requestInfo (js "why")) 4

/-- Without the condition a dispute that has ended gets a further statement. -/
theorem ended_dispute_is_asked_about :
    ¬ ∀ (env : GoldenEnv) (pre post : List GoldenOp) (mid db : GoldenDb),
      Run (GoldenStep env) .empty pre mid → Run (GoldenStep env) mid post db →
        OneOpenDispute mid ∧ DisputedUnderReview mid ∧ ExtendedOnce mid ∧ TerminalKept mid db ∧
          ∀ op next, GoldenStep env mid op next → CorrectedTogether mid next := by
  intro h
  obtain ⟨mid, hpre, hmid⟩ := goldenRun_of_exec plainEnv .empty withdrawnDispute
    (fun mid => (exec (goldenNext plainEnv) mid [lateQuestion]).any fun db =>
      mid.disputes.any fun d => !d.status.isOpen &&
        (db.statementsOf d.id).length != (mid.statementsOf d.id).length) (by decide +kernel)
  obtain ⟨db, hpost, hdb⟩ := goldenRun_of_exec plainEnv mid [lateQuestion] _ hmid
  obtain ⟨d, hd, hsaid⟩ := any_eq_true.mp hdb
  obtain ⟨hended, hmore⟩ := Bool.and_eq_true_iff.mp hsaid
  obtain ⟨-, -, -, hkept, -⟩ := h plainEnv _ _ mid db hpre hpost
  rw [(hkept d hd (by simpa using hended)).2.1, bne_self_eq_false] at hmore
  cases hmore

end AramoPlatform.Intelligence
