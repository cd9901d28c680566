import AramoPlatform.Sign.Routing

/-!
# The turn in every reachable state

The recipients stay in the order in which the send found them, whatever the
operations of the engine do. So while nobody has declined and somebody still
has to sign, one recipient is in turn, and the check of the engine, the
reminders and the invitations name that one.
-/

namespace AramoPlatform.Sign

open Js Lib List

variable {deps : Deps} {s t u : State} {r : SignerRow} {ctx : SessionContext}

def NobodyDeclined (rows : List SignerRow) : Prop :=
  ∀ x ∈ rows, isSigningRecipient x = true → x.status ≠ .declined

/-- In a sequential envelope every place that asks for the turn finds `r`. -/
structure TurnAgrees (deps : Deps) (s : State) (r : SignerRow) : Prop where
  turn : currentTurnOf s.signers = some r
  mayAct : ∀ id, mayActNow .sequential s.signers id = true ↔ id = r.id
  eligible : ∀ x ∈ s.signers, isSigningRecipient x = true →
    (assertEligible s x.id = .ok () ↔ x.id = r.id)
  remindable : ∀ signerId, remindable s signerId =
    if isLinkSigner r && signerId.all (· == r.id) then [r] else []
  /-- A reminder that succeeds mints sessions for `r` only. -/
  reminded : ∀ actorRef signerId limits now t,
    remindSigner deps s actorRef signerId limits now = .ok t → isLinkSigner r = true ∧
      ∀ x ∈ t.sessions, (∃ y ∈ s.sessions, y.id = x.id) ∨ x.signerId = r.id
  invitedAtSend : invitedAtSend .sequential s.signers = if isLinkSigner r then [r] else []

/-- A completion that leads from `u` to `t` invites `r` if `r` is emailed a link,
and nobody else. -/
structure InvitesNext (u t : State) (r : SignerRow) : Prop where
  invited : isLinkSigner r = true → hasOpenIntent t r.id = true
  only : ∀ d ∈ t.deliveries, d ∈ u.deliveries ∨ isLinkSigner r = true ∧ d.signerId = some r.id

/-! ## The places that ask -/

theorem witnessedHasSigned_of_ready (h : Routed .sequential s.signers) (hr : r ∈ s.signers)
    (hw : isWitness r = true) (hready : witnessReady s.signers r = true) :
    witnessedHasSigned s r = true := by
  obtain ⟨p, hp, hnames, -⟩ := h.witness r hr hw
  have hsigned := (witnessReady_iff h.ids hw hp hnames).mp hready
  simp [witnessedHasSigned, hnames, signer?_of_mem h.ids hp, hsigned]

theorem eligible_iff (h : Routed .sequential s.signers) (hseq :
    s.envelope.routingMode = .sequential)
    (hturn : currentTurnOf s.signers = some r) {x : SignerRow} (hx : x ∈ s.signers) :
    assertEligible s x.id = .ok () ↔ x.id = r.id := by
  obtain ⟨hr, -, -⟩ := currentTurnOf_eq_some hturn
  constructor
  · intro hok
    have hturn' := assertEligible_turn hok hseq
    rw [currentTurnSignerId, hturn, Option.map_some, Option.some.injEq] at hturn'
    exact hturn'.symm
  · intro hid
    obtain rfl := inj_on_of_nodup_map h.ids hx hr hid
    have hwitness : isWitness x = true → witnessedHasSigned s x = true := fun hw =>
      witnessedHasSigned_of_ready h hx hw (h.turn_ready hturn)
    simp only [assertEligible, bind_eq_ok, require_eq_ok, signer?_of_mem h.ids hx]
    refine ⟨(), ?_, ?_⟩
    · cases hw : isWitness x with
      | false => simp [hw]
      | true => simp [hw, hwitness hw]
    · simp [currentTurnSignerId, hturn]

theorem awaited_eq_open (hdeclined : NobodyDeclined s.signers) :
    (s.signers.filter fun x => x.status.isAwaiting && isSigningRecipient x) =
      (signingRecipients s.signers).filter (·.status != .signed) := by
  rw [signingRecipients, filter_filter]
  refine filter_congr fun x hx => ?_
  cases hsigning : isSigningRecipient x with
  | false => simp
  | true =>
    have hne := hdeclined x hx hsigning
    cases hstatus : x.status <;> first | rfl | exact absurd hstatus hne

theorem take_one_of_head? {α : Type} {l : List α} {a : α} (h : l.head? = some a) :
    l.take 1 = [a] := by
  cases l with
  | nil => cases h
  | cons b rest =>
    obtain rfl : b = a := by simpa using h
    rfl

theorem remindable_eq (h : Routed .sequential s.signers)
    (hseq : s.envelope.routingMode = .sequential) (hdeclined : NobodyDeclined s.signers)
    (hturn : currentTurnOf s.signers = some r) (signerId : Option Uuid) :
    remindable s signerId = if isLinkSigner r && signerId.all (· == r.id) then [r] else [] := by
  have htake : ((s.signers.filter fun x => x.status.isAwaiting &&
    isSigningRecipient x).insertionSort
      orderLe).take 1 = [r] := by
    rw [awaited_eq_open hdeclined]
    exact take_one_of_head? hturn
  simp only [remindable, hseq, if_true, htake, filter_cons, filter_nil,
    h.turn_ready hturn, Bool.and_true]

theorem reminded_only (hwf : EngineWf s) {signerId : Option Uuid}
    (heq : remindable s signerId = if isLinkSigner r && signerId.all (· == r.id) then [r] else [])
    {actorRef : JsString} {limits : Option ReminderLimits} {now : Nat}
    (hok : remindSigner deps s actorRef signerId limits now = .ok t) :
    isLinkSigner r = true ∧
      ∀ x ∈ t.sessions, (∃ y ∈ s.sessions, y.id = x.id) ∨ x.signerId = r.id := by
  obtain ⟨-, hsome, targets, hsub, minted, hmint, hsame, -⟩ := remindSigner_ok hok
  have hlink : (isLinkSigner r && signerId.all (· == r.id)) = true := by
    by_contra hnot
    exact hsome (heq.trans (if_neg hnot))
  refine ⟨(Bool.and_eq_true_iff.mp hlink).1, fun x hx => ?_⟩
  have hq : ∀ id ∈ targets.map (·.id), id = r.id := by
    intro id hid
    obtain ⟨y, hy, rfl⟩ := mem_map.mp hid
    have hmem := hsub y hy
    rw [heq, if_pos hlink] at hmem
    rw [mem_singleton.mp hmem]
  obtain ⟨hfrom, -⟩ := replaceLinks_from (Q := (· = r.id)) hmint (SessionsFrom.start hwf) hq
  rw [hsame.sessions] at hx
  rcases hfrom.origin x hx with ⟨y, hy, hid, -⟩ | ⟨-, hnew⟩
  · exact .inl ⟨y, hy, hid.symm⟩
  · exact .inr hnew

theorem invitedAtSend_eq (h : Routed .sequential s.signers)
    (hturn : currentTurnOf s.signers = some r) :
    invitedAtSend .sequential s.signers = if isLinkSigner r then [r] else [] := by
  simp only [invitedAtSend, hturn, Option.toList_some, filter_cons, filter_nil,
    h.turn_ready hturn, Bool.and_true]

/-- **One turn.** Every place that asks names the same recipient. -/
theorem turnAgrees (hwf : EngineWf s) (h : Routed .sequential s.signers)
    (hseq : s.envelope.routingMode = .sequential) (hdeclined : NobodyDeclined s.signers)
    (hturn : currentTurnOf s.signers = some r) : TurnAgrees deps s r where
  turn := hturn
  mayAct := h.mayActNow_iff hturn
  eligible := fun _ hx _ => eligible_iff h hseq hturn hx
  remindable := remindable_eq h hseq hdeclined hturn
  reminded := fun _ signerId _ _ _ hok =>
    reminded_only hwf (remindable_eq h hseq hdeclined hturn signerId) hok
  invitedAtSend := invitedAtSend_eq h hturn

/-! ## Completions -/

theorem signRows_deliveries (live : SigningSessionRow) (me : SignerRow) (profileName : JsString) :
    (signRows deps s ctx live me profileName).deliveries = s.deliveries ∧
      (signRows deps s ctx live me profileName).envelope = s.envelope := by
  unfold signRows
  dsimp only
  split
  · split <;> exact ⟨rfl, rfl⟩
  · exact ⟨rfl, rfl⟩

theorem recordIntent_invites (id : Uuid) : hasOpenIntent (recordIntent s id) id = true ∧
    ∀ d ∈ (recordIntent s id).deliveries, d ∈ s.deliveries ∨ d.signerId = some id := by
  unfold recordIntent
  split
  next hopen => exact ⟨hopen, fun d hd => .inl hd⟩
  · constructor
    · simp [hasOpenIntent, State.addDelivery, State.newDelivery]
    · intro d hd
      rcases mem_append.mp hd with hold | hnew
      · exact .inl hold
      · rw [mem_singleton.mp hnew]
        exact .inr rfl

theorem inviteNext_invites (hseq : s.envelope.routingMode = .sequential)
    (hturn : currentTurnOf s.signers = some r) (signerId : Uuid) :
    InvitesNext s (inviteNext s signerId) r := by
  unfold inviteNext
  rw [hseq]
  simp only [hturn]
  by_cases hlink : isLinkSigner r = true
  · simp only [Option.filter, hlink, if_true]
    obtain ⟨hopen, honly⟩ := recordIntent_invites (s := s) r.id
    exact ⟨fun _ => hopen, fun d hd => (honly d hd).imp_right fun hid => ⟨hlink, hid⟩⟩
  · simp only [Option.filter, hlink]
    exact ⟨fun h => absurd h hlink, fun d hd => .inl hd⟩

theorem completeSigner_invites {attested : Option JsString}
    (h : completeSigner deps u ctx attested = .ok t)
    (hseq : t.envelope.routingMode = .sequential) (hturn : currentTurnOf t.signers = some r) :
    InvitesNext u t r := by
  simp only [completeSigner, bind_eq_ok] at h
  obtain ⟨status, -, live, -, _, -, h⟩ := h
  split at h
  · simp at h
  · simp only [bind_eq_ok] at h
    obtain ⟨-, -, me, -, h⟩ := h
    split at h
    next hall =>
      -- everybody has signed, so nobody is in turn
      obtain ⟨hr, hsigning, hstatus⟩ := currentTurnOf_eq_some hturn
      have hcore := completeEnvelope_core h
      rw [hcore.signers] at hr
      exact absurd ((allSigningRecipientsSigned_iff.mp hall).2 r hr hsigning) hstatus
    · obtain rfl := pure_eq_ok.mp h
      set signed := signRows deps u ctx live me (profileNameFor attested me.name) with hsigned
      have hdeliveries : signed.deliveries = u.deliveries :=
        (signRows_deliveries live me (profileNameFor attested me.name)).1
      have hcore := coreSame_inviteNext (s := signed) ctx.signerId
      rw [hcore.signers] at hturn
      rw [hcore.routingMode] at hseq
      have hinvites := inviteNext_invites hseq hturn ctx.signerId
      exact ⟨hinvites.invited, fun d hd => hdeliveries ▸ hinvites.only d hd⟩

/-! ## Over runs -/

/-- What the routing of `s` promises: in order the turn is one recipient's
everywhere, and without an order somebody may act. -/
structure RoutingAgrees (deps : Deps) (s : State) : Prop where
  sequential : s.envelope.routingMode = .sequential → ∃ r ∈ s.signers, TurnAgrees deps s r ∧
    ∀ u time ctx attested, engineStep deps u ⟨time, .completeSigner ctx attested⟩ s →
      InvitesNext u s r
  parallel : s.envelope.routingMode = .parallel →
    ∃ x ∈ s.signers, x.status ≠ .signed ∧ mayActNow .parallel s.signers x.id = true

theorem routingAgrees (hwf : EngineWf s) (h : Routed s.envelope.routingMode s.signers)
    (hdeclined : NobodyDeclined s.signers) (hopen : SomeoneOpen s.signers) :
    RoutingAgrees deps s := by
  constructor
  case sequential =>
    intro hseq
    rw [hseq] at h
    obtain ⟨r, hturn⟩ := currentTurnOf_isSome hopen
    refine ⟨r, (currentTurnOf_eq_some hturn).1, turnAgrees hwf h hseq hdeclined hturn, ?_⟩
    intro u time ctx attested hstep
    have hinvites := completeSigner_invites hstep.2 hseq hturn
    exact ⟨hinvites.invited, hinvites.only⟩
  case parallel =>
    intro _
    exact h.someone_mayActNow hopen

theorem run_routed {calls : List Call} (hwf : EngineWf s)
    (h : Routed s.envelope.routingMode s.signers) (hrun : Run (engineStep deps) s calls t) :
    EngineWf t ∧ Routed t.envelope.routingMode t.signers := by
  refine hrun.invariant (I := fun s => EngineWf s ∧ Routed s.envelope.routingMode s.signers) ?_
    ⟨hwf, h⟩
  rintro a call b ⟨hwf, h⟩ hstep
  obtain ⟨hwf', heffect⟩ := step_effect hwf hstep
  refine ⟨heffect.wf hwf', ?_⟩
  rw [heffect.routingMode]
  exact h.of_slots heffect.slots

/-- **Sequential routing agrees and nothing deadlocks**: in every state that
an envelope reaches whose recipients are ready and whose witnesses attest in
the end for somebody who signs, as long as nobody has declined and somebody
still has to sign. -/
theorem routing_agrees {init : State} {calls : List Call} (hinit : Initial init)
    (horders : (init.signers.map (·.signingOrder)).Nodup) (hready : readiness init = [])
    (hgrounded : WitnessesGrounded init.signers) (hrun : Run (engineStep deps) init calls t)
    (hdeclined : NobodyDeclined t.signers) (hopen : SomeoneOpen t.signers) :
    RoutingAgrees deps t := by
  obtain ⟨hwf, hrouted⟩ :=
    run_routed hinit.wf (routed_of_ready hinit.signerIds horders hgrounded hready) hrun
  exact routingAgrees hwf hrouted hdeclined hopen

/-- A signer and, after it, the witness of that signer. -/
def witnessed : State :=
  newDraft .sequential
    [newSigner 1 (js "ada@example.com"),
      { newSigner 2 (js "will@example.com") with
        recipientKind := .witness, witnessForSignerId := some 1 }]
    [newField 10 1 .signature, newField 11 2 .signature]

/-- The signer signs, and the turn is with the witness. -/
theorem routing_agrees_witnessed :
    ∃ t, Run (engineStep plainDeps) witnessed
        [sendNow witnessed 0,
          ⟨1, .acceptDisclosure ⟨100, 1⟩ ⟨js "2026-01", js "text-hash", none, {}⟩⟩,
          ⟨2, .fillField ⟨100, 1⟩ 10 ⟨js "Ada", some .typed⟩⟩,
            ⟨3, .completeSigner ⟨100, 1⟩ none⟩] t ∧
      currentTurnSignerId t.signers = some 2 ∧ RoutingAgrees plainDeps t := by
  obtain ⟨t, hrun, ht⟩ := engineRun_of_exec plainDeps witnessed
    [sendNow witnessed 0,
      ⟨1, .acceptDisclosure ⟨100, 1⟩ ⟨js "2026-01", js "text-hash", none, {}⟩⟩,
      ⟨2, .fillField ⟨100, 1⟩ 10 ⟨js "Ada", some .typed⟩⟩, ⟨3, .completeSigner ⟨100, 1⟩ none⟩]
    (fun t => currentTurnSignerId t.signers == some 2 &&
      t.signers.all (·.status != .declined) &&
        t.signers.any fun r => isSigningRecipient r && r.status != .signed) rfl
  simp only [Bool.and_eq_true, beq_iff_eq, all_eq_true, any_eq_true, bne_iff_ne] at ht
  obtain ⟨⟨hturn, hdeclined⟩, r, hr, hopen⟩ := ht
  have hinit : Initial witnessed :=
    newDraft_initial (by decide) (by decide) (by simp [newSigner]) (by simp [newField])
  have hgrounded : WitnessesGrounded witnessed.signers := by
    intro r hr hw
    refine .attests hw (mem_cons_self) ?_ (.signs rfl rfl)
    rcases mem_cons.mp hr with rfl | hr
    · cases hw
    · rw [mem_singleton.mp hr]
      rfl
  exact ⟨t, hrun, hturn, routing_agrees hinit (by decide) (by decide) hgrounded hrun
    (fun x hx _ => hdeclined x hx) ⟨r, hr, hopen⟩⟩

/-- A request that lists the same recipient twice, as a signer and as one who
receives a copy, and a witness for the first of the two. -/
def listedTwice : List RecipientItem :=
  [⟨some 1, js "Ada Lovelace", js "ada@example.com", .signer, none, none⟩,
    ⟨some 1, js "Ada Lovelace", js "ada@example.org", .receivesCopy, some .both, none⟩,
    ⟨none, js "Will", js "will@example.com", .witness, none, some 0⟩]

def adasDraft : State := newDraft .sequential [newSigner 1 (js "ada@example.com")] []

/-- The draft that the request leaves. -/
def adasCopy : State :=
    ((replaceRecipients plainDeps adasDraft listedTwice).toOption).getD adasDraft

/-- The same with the signature field of the witness, recipient 100. -/
def witnessOfCopy : State := { adasCopy with fields := [newField 10 100 .signature] }

theorem witnessOfCopy_initial : Initial witnessOfCopy where
  draft := rfl
  signerIds := by decide
  fieldIds := by decide
  pending := by decide
  undelegated := by decide
  unfilled := by simp [witnessOfCopy, newField]
  noSessions := rfl
  noAcceptances := rfl
  noAttempts := rfl
  noPayments := rfl
  noRefunds := rfl

/-- The request is accepted, the witness attests for one who never signs, the
send finds the draft ready, and then nobody may act. -/
theorem ready_and_deadlocked :
    ¬ ∀ (deps : Deps) (draft written t : State) (items : List RecipientItem)
        (fields : List FieldRow) (calls : List Call),
        replaceRecipients deps draft items = .ok written →
        Initial { written with fields := fields } →
        (written.signers.map (·.signingOrder)).Nodup →
        readiness { written with fields := fields } = [] →
        Run (engineStep deps) { written with fields := fields } calls t →
        NobodyDeclined t.signers → SomeoneOpen t.signers → RoutingAgrees deps t := by
  intro hclaim
  obtain ⟨t, hrun, ht⟩ := engineRun_of_exec plainDeps witnessOfCopy [sendNow witnessOfCopy 0]
    (fun t => t.envelope.routingMode == .sequential &&
      t.signers.all (fun r => !mayActNow .sequential t.signers r.id && r.status != .declined) &&
        t.signers.any fun r => isSigningRecipient r && r.status != .signed) rfl
  simp only [Bool.and_eq_true, beq_iff_eq, all_eq_true, any_eq_true, bne_iff_ne,
    Bool.not_eq_true'] at ht
  obtain ⟨⟨hseq, hall⟩, r, hr, hopen⟩ := ht
  have hagrees := hclaim plainDeps adasDraft adasCopy t listedTwice [newField 10 100 .signature] _
    rfl witnessOfCopy_initial (by decide) (by decide) hrun (fun x hx _ => (hall x hx).2)
    ⟨r, hr, hopen⟩
  obtain ⟨r, hr, hturn, -⟩ := hagrees.sequential hseq
  have hmay := (hturn.mayAct r.id).mpr rfl
  rw [(hall r hr).1] at hmay
  cases hmay

end AramoPlatform.Sign
