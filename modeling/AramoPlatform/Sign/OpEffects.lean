import AramoPlatform.Sign.EngineEvents

/-!
# The outcome of each operation

One lemma for each operation: it has one of the effects, and the events that it
appends are its own. `run_outcome` puts them together.
-/

namespace AramoPlatform.Sign

open Js Lib List

section

variable {deps : Deps} {s t u : State} {op : Op} {ctx : SessionContext}

theorem inSession_of_live {session : SigningSessionRow}
    (h : assertLiveSession s ctx = .ok session) : InSession s ctx session :=
  have ⟨hmem, hid, hsigner, hlive, hexp⟩ := assertLiveSession_ok h
  ⟨hmem, hid, hsigner, hlive, hexp⟩

theorem signer?_eq_some {id : Uuid} {r : SignerRow} (h : s.signer? id = some r) :
    r ∈ s.signers ∧ r.id = id :=
  ⟨mem_of_find?_eq_some h, by simpa using find?_some h⟩

/-! ## Transitions -/

theorem coreSame_appendEvent (input : AppendEventInput (Option Payload)) :
    CoreSame s (s.appendEvent deps input) :=
  ⟨rfl, rfl, rfl, rfl, rfl, rfl, rfl, rfl, rfl, rfl, Nat.le_refl _⟩

theorem transition_end {input : TransitionEnvelopeInput}
    (h : transitionEnvelopeIn deps s input = .ok t) (hterminal : input.target.isTerminal = true) :
    s.envelope.status.isTerminal = false ∧ CoreSame (endCore s input.target) t := by
  obtain ⟨hpred, rfl⟩ := transitionEnvelopeIn_ok h
  refine ⟨EnvelopeStatus.not_terminal_of_mem_predecessorsOf hpred, ?_⟩
  simp only [hterminal, if_true]
  exact ⟨by simp [endCore], by simp [endCore], rfl, rfl, rfl, rfl, rfl, rfl, rfl, rfl,
    Nat.le_refl _⟩

theorem transition_move {input : TransitionEnvelopeInput}
    (h : transitionEnvelopeIn deps s input = .ok t) (hterminal : input.target.isTerminal = false) :
    s.envelope.status.isTerminal = false ∧
      CoreSame (s.setEnvelope { s.envelope with status := input.target }) t := by
  obtain ⟨hpred, rfl⟩ := transitionEnvelopeIn_ok h
  refine ⟨EnvelopeStatus.not_terminal_of_mem_predecessorsOf hpred, ?_⟩
  simp only [hterminal, Bool.false_eq_true, if_false]
  exact ⟨by simp, by simp, rfl, rfl, rfl, rfl, rfl, rfl, rfl, rfl, Nat.le_refl _⟩

theorem voidEnvelope_outcome {actorRef reason : JsString}
    (h : voidEnvelope deps s actorRef reason = .ok t) : Outcome op s t :=
  have ⟨hopen, hcore⟩ := transition_end h rfl
  ⟨.closed hopen rfl (by simp) hcore,
    (Appends.same rfl).transition h (.of_text .envelopeVoided rfl rfl)⟩

theorem expireEnvelope_outcome (h : expireEnvelope deps s = .ok t) : Outcome op s t :=
  have ⟨hopen, hcore⟩ := transition_end h rfl
  ⟨.closed hopen rfl (by simp) hcore,
    (Appends.same rfl).transition h (.of_text .envelopeExpired rfl rfl)⟩

theorem decline_outcome {signerId : Uuid} {reason : JsString} {sessionId : Option Uuid}
    (h : decline deps s signerId reason sessionId = .ok t) :
    Outcome (.decline signerId reason sessionId) s t := by
  simp only [decline, bind_eq_ok, require_eq_ok] at h
  obtain ⟨-, hsign, _, hgate, hend⟩ := h
  refine ⟨?_, ?_⟩
  case refine_2 =>
    refine Appends.transition ?_ hend (.of_text .envelopeDeclined rfl rfl)
    exact .same rfl
  refine .declined hsign (fun id hid => ?_) ?_ (transition_end hend rfl).2
  case refine_2 => exact fun r => ⟨⟨rfl, rfl, rfl, rfl, rfl, rfl⟩, rfl, rfl⟩
  subst hid
  simp only [assertMayDecline, bind_eq_ok] at hgate
  obtain ⟨session, hlive, _, helig, -⟩ := hgate
  exact ⟨⟨session, inSession_of_live hlive⟩, helig⟩

/-! ## Filling, delegation, completion -/

theorem fillField_outcome {fieldId : Uuid} {input : FillInput}
    (h : fillField s ctx fieldId input = .ok t) : Outcome op s t := by
  simp only [fillField, bind_eq_ok, require_eq_ok, orThrow_eq_ok] at h
  obtain ⟨_, hlock, session, hlive, _, hgates, field, hfind, -, -, -, hpay, -, -, h⟩ := h
  split at h
  · simp at h
  · have hid := find?_some hfind
    simp only [Bool.and_eq_true, beq_iff_eq] at hid
    obtain rfl := pure_eq_ok.mp h
    obtain ⟨rfl, hown⟩ := hid
    refine ⟨.filled ⟨(lockSignableEnvelope_ok hlock).1, inSession_of_live hlive, hgates⟩
      (mem_of_find?_eq_some hfind) hown (by simpa using hpay) ?_ (CoreSame.refl _), .same rfl⟩
    exact fun x => ⟨⟨rfl, rfl, rfl⟩, rfl⟩

theorem coreSame_recordIntent (signerId : Uuid) : CoreSame s (recordIntent s signerId) := by
  unfold recordIntent
  split
  · exact .refl _
  · exact ⟨rfl, rfl, rfl, rfl, rfl, rfl, rfl, rfl, rfl, rfl, Nat.le_succ _⟩

theorem delegateSigner_ok {input : DelegateInput} (h : delegateSigner deps s ctx input = .ok t) :
    ∃ g, Delegated s ctx g t := by
  simp only [delegateSigner, bind_eq_ok, require_eq_ok, orThrow_eq_ok, pure_eq_ok] at h
  obtain ⟨-, -, _, hlock, session, hlive, -, -, -, -, -, -, signer, hfind, -, -, fromEmail, -, -,
    hfirst, -, hawait, -, -, rfl⟩ := h
  obtain ⟨hmem, hid⟩ := signer?_eq_some hfind
  refine ⟨fun r => { r with
      name := collapseSpaces (trim input.name), email := some (trim input.email)
      delegatedFromName := some signer.name, delegatedFromEmail := some fromEmail
      delegatedAt := some s.clock, boundUserId := none, status := .pending, viewedAt := none },
    (lockSignableEnvelope_ok hlock).1, ⟨session, inSession_of_live hlive⟩,
    ⟨signer, hmem, hid, by simpa using hfirst, hawait⟩,
    fun r => ⟨⟨rfl, rfl, rfl, rfl, rfl, rfl⟩, rfl, rfl⟩, ?_⟩
  refine CoreSame.trans ?_ (coreSame_recordIntent _)
  exact ⟨rfl, rfl, rfl, rfl, rfl, rfl, rfl, rfl, rfl, rfl, Nat.le_succ _⟩

theorem delegateSigner_outcome {input : DelegateInput}
    (h : delegateSigner deps s ctx input = .ok t) : Outcome (.delegateSigner ctx input) s t := by
  obtain ⟨g, hdelegated⟩ := delegateSigner_ok h
  simp only [delegateSigner, bind_eq_ok, require_eq_ok, orThrow_eq_ok, pure_eq_ok] at h
  obtain ⟨-, -, _, -, _, -, -, -, -, -, -, -, signer, -, -, -, fromEmail, -, -, -, -, -, -, -,
    rfl⟩ := h
  refine ⟨.delegated hdelegated, Appends.congr ?_ (recordIntent_events _)⟩
  refine .one (.of_text .signerDelegated rfl ?_) rfl
  generalize ((input.reason.map trim).filter (!·.isEmpty)).map (·.take 500) = reason
  cases reason <;> rfl

theorem coreSame_foldl {α : Type} {f : State → α → State} (hf : ∀ s a, CoreSame s (f s a))
    (rows : List α) : CoreSame s (rows.foldl f s) := by
  induction rows generalizing s with
  | nil => exact .refl s
  | cons a rest ih => exact (hf s a).trans ih

theorem coreSame_inviteNext (signerId : Uuid) : CoreSame s (inviteNext s signerId) := by
  unfold inviteNext
  split
  · split
    · exact coreSame_recordIntent _
    · exact .refl _
  · exact coreSame_foldl (fun s (w : SignerRow) => coreSame_recordIntent w.id) _

theorem signRows_core (deps : Deps) (s : State) (ctx : SessionContext) (live : SigningSessionRow)
    (me : SignerRow) (profileName : JsString) :
    ∃ n g f, SignWrites n g f ∧
      CoreSame (signCore s ctx n g f) (signRows deps s ctx live me profileName) ∧
      (signRows deps s ctx live me profileName).signers = (signCore s ctx n g f).signers := by
  refine ⟨fun x => { x with
        value := some profileName, signatureMethod := none, filledAt := some s.clock },
    fun r => { r with status := .signed, signedAt := some s.clock },
    fun x => { x with status := .completed, completedAt := some s.clock }, ⟨?_, ?_, ?_⟩, ?_⟩
  · exact fun x => ⟨⟨rfl, rfl, rfl⟩, rfl⟩
  · exact fun r => ⟨⟨rfl, rfl, rfl, rfl, rfl, rfl⟩, rfl, rfl⟩
  · exact fun x => ⟨rfl, rfl, rfl, id, rfl⟩
  · unfold signRows
    dsimp only
    split
    · split
      · exact ⟨⟨rfl, rfl, rfl, rfl, rfl, rfl, rfl, rfl, rfl, rfl, Nat.le_refl _⟩, rfl⟩
      · exact ⟨⟨rfl, rfl, rfl, rfl, rfl, rfl, rfl, rfl, rfl, rfl, Nat.le_refl _⟩, rfl⟩
    · exact ⟨⟨rfl, rfl, rfl, rfl, rfl, rfl, rfl, rfl, rfl, rfl, Nat.le_refl _⟩, rfl⟩

theorem CoreSame.endCore (h : CoreSame s t) (target : EnvelopeStatus) :
    CoreSame (endCore s target) (Sign.endCore t target) where
  status := rfl
  routingMode := h.routingMode
  signers := h.signers
  fields := h.fields
  sessions := by simp [Sign.endCore, h.sessions, h.clock]
  acceptances := h.acceptances
  attempts := h.attempts
  payments := h.payments
  refunds := h.refunds
  clock := h.clock
  nextId := h.nextId

theorem completeEnvelope_core {status : EnvelopeStatus} {signerId : Uuid}
    (h : completeEnvelope deps s status signerId = .ok t) : CoreSame (endCore s .completed) t := by
  simp only [completeEnvelope, bind_eq_ok] at h
  obtain ⟨started, hstart, hend⟩ := h
  have hcore := (transition_end hend rfl).2
  unfold startIfSent at hstart
  split at hstart
  · obtain ⟨-, hmove⟩ := transition_move hstart rfl
    exact (hmove.endCore .completed).trans hcore
  · obtain rfl : s = started := by simpa using hstart
    exact hcore

theorem completeSigner_outcome {attested : Option JsString}
    (h : completeSigner deps s ctx attested = .ok t) :
    Outcome (.completeSigner ctx attested) s t := by
  simp only [completeSigner, bind_eq_ok] at h
  obtain ⟨status, hlock, live, hlive, _, hgates, h⟩ := h
  split at h
  · simp at h
  next hrules =>
    simp only [bind_eq_ok, orThrow_eq_ok] at h
    obtain ⟨-, -, me, -, h⟩ := h
    have hmay : MaySign s ctx live :=
      ⟨(lockSignableEnvelope_ok hlock).1, inSession_of_live hlive, hgates⟩
    obtain ⟨n, g, f, hwrites, hcore, hsigners⟩ := signRows_core deps s ctx live
      me (profileNameFor attested me.name)
    have hrows := signRows_events deps s ctx attested live me (profileNameFor attested me.name)
    rw [hsigners] at h
    split at h
    next hall =>
      refine ⟨.completed hmay hrules hwrites hall
        ((hcore.endCore .completed).trans (completeEnvelope_core h)), ?_⟩
      simp only [completeEnvelope, bind_eq_ok] at h
      obtain ⟨started, hstart, hend⟩ := h
      exact (startIfSent_events hrows hstart).transition hend (.of_text .envelopeCompleted rfl rfl)
    next hrest =>
      obtain rfl := pure_eq_ok.mp h
      exact ⟨.signed hmay hrules hwrites (by simpa using hrest)
        (hcore.trans (coreSame_inviteNext _)), hrows.congr (inviteNext_events _)⟩

end

/-! ## New sessions -/

section

variable {deps : Deps} {Q : Uuid → Prop} {s t u v : State} {op : Op}

/-- A mint changes the sessions only. -/
def SessionsOnly (u v : State) : Prop := CoreSame { u with sessions := v.sessions } v

theorem SessionsOnly.trans (h : SessionsOnly s u) (h' : SessionsOnly u v) : SessionsOnly s v where
  status := h'.status.trans h.status
  routingMode := h'.routingMode.trans h.routingMode
  signers := h'.signers.trans h.signers
  fields := h'.fields.trans h.fields
  sessions := rfl
  acceptances := h'.acceptances.trans h.acceptances
  attempts := h'.attempts.trans h.attempts
  payments := h'.payments.trans h.payments
  refunds := h'.refunds.trans h.refunds
  clock := h'.clock.trans h.clock
  nextId := Nat.le_trans h.nextId h'.nextId

theorem CoreSame.sessionsOnly (h : CoreSame u v) : SessionsOnly u v := by
  simpa only [SessionsOnly, h.sessions] using h

theorem sessionsOnly_addSession (n : State.NewSession) : SessionsOnly u (u.addSession n) :=
  ⟨rfl, rfl, rfl, rfl, rfl, rfl, rfl, rfl, rfl, rfl, Nat.le_succ _⟩

theorem sessionsOnly_revokeSessions (p : SigningSessionRow → Bool) (now : Nat) :
    SessionsOnly u (u.revokeSessions p now) :=
  ⟨rfl, rfl, rfl, rfl, rfl, rfl, rfl, rfl, rfl, rfl, Nat.le_refl _⟩

theorem mintSessions_from {new : List State.NewSession} (h : u.mintSessions new = .ok v)
    (hfrom : SessionsFrom Q s u) (hq : ∀ n ∈ new, Q n.signerId) :
    SessionsFrom Q s v ∧ SessionsOnly u v := by
  induction new generalizing u with
  | nil =>
    obtain rfl : u = v := pure_eq_ok.mp h
    exact ⟨hfrom, (CoreSame.refl u).sessionsOnly⟩
  | cons n rest ih =>
    simp only [State.mintSessions, foldlM_cons, bind_eq_ok] at h
    obtain ⟨w, hmint, hrest⟩ := h
    obtain rfl := mintSession_ok hmint
    obtain ⟨hv, honly⟩ := ih hrest (hfrom.mint (hq n mem_cons_self))
      fun m hm => hq m (mem_cons_of_mem _ hm)
    exact ⟨hv, (sessionsOnly_addSession n).trans honly⟩

variable {now : Nat}

theorem replaceLink_from {signerId : Uuid} (h : replaceLink now u signerId = .ok v)
    (hfrom : SessionsFrom Q s u) (hq : Q signerId) :
    SessionsFrom Q s v ∧ SessionsOnly u v := by
  obtain rfl := mintSession_ok h
  exact ⟨(hfrom.revoke _ now).mint hq,
    (sessionsOnly_revokeSessions _ now).trans (sessionsOnly_addSession _)⟩

theorem replaceLinks_from {ids : List Uuid}
    (h : ids.foldlM (replaceLink now) u = .ok v) (hfrom : SessionsFrom Q s u)
    (hq : ∀ id ∈ ids, Q id) : SessionsFrom Q s v ∧ SessionsOnly u v := by
  induction ids generalizing u with
  | nil =>
    obtain rfl : u = v := pure_eq_ok.mp h
    exact ⟨hfrom, (CoreSame.refl u).sessionsOnly⟩
  | cons id rest ih =>
    simp only [foldlM_cons, bind_eq_ok] at h
    obtain ⟨w, hlink, hrest⟩ := h
    obtain ⟨hw, honly⟩ := replaceLink_from hlink hfrom (hq id mem_cons_self)
    obtain ⟨hv, honly'⟩ := ih hrest hw fun m hm => hq m (mem_cons_of_mem _ hm)
    exact ⟨hv, honly.trans honly'⟩

theorem Effect.of_minted (hwf : EngineWf s) (hsign : s.envelope.status.isSignable = true)
    (hfrom : SessionsFrom (Invitable s) s u) (honly : SessionsOnly s u) (hsame : CoreSame u t) :
    Effect s op t := by
  have hall : SessionsOnly s t := honly.trans hsame.sessionsOnly
  have hstatus : t.envelope.status = s.envelope.status := hall.status
  refine .ordinary (.of_sessions hwf ?_ (.inl hstatus) hall.routingMode ?_)
  · exact (hfrom.congr hsame.sessions hsame.nextId).minted (hstatus ▸ hsign)
  · exact ⟨rfl, rfl, hall.signers, hall.fields, rfl, hall.acceptances, hall.attempts,
      hall.payments, hall.refunds, hall.clock, hall.nextId⟩

theorem invitable_of_signer? {id : Uuid} {r : SignerRow} (h : s.signer? id = some r)
    (hawait : r.status.isAwaiting = true) : Invitable s id :=
  .inr ⟨r, (signer?_eq_some h).1, (signer?_eq_some h).2, hawait⟩

theorem lockForSessionIssue_ok {signerId : Uuid} {now ttl : Nat} {r : SignerRow × Nat}
    (h : lockForSessionIssue s signerId now ttl = .ok r) :
    s.envelope.status.isSignable = true ∧ r.1.id = signerId ∧ Invitable s signerId := by
  simp only [lockForSessionIssue, bind_eq_ok, orThrow_eq_ok, require_eq_ok, pure_eq_ok,
    Bool.and_eq_true] at h
  obtain ⟨signer, hfind, -, ⟨hsign, -⟩, -, ⟨-, hawait⟩, -, -, rfl⟩ := h
  exact ⟨hsign, (signer?_eq_some hfind).2, invitable_of_signer? hfind hawait⟩

theorem issueHostedSession_outcome (hwf : EngineWf s) {signerId host : Uuid}
    (h : issueHostedSession deps s signerId host now = .ok t) : Outcome op s t := by
  simp only [issueHostedSession, bind_eq_ok, require_eq_ok, pure_eq_ok] at h
  obtain ⟨r, hlock, -, -, minted, hmint, rfl⟩ := h
  obtain ⟨hsign, -, hinv⟩ := lockForSessionIssue_ok hlock
  obtain rfl := mintSession_ok hmint
  exact ⟨.of_minted hwf hsign (((SessionsFrom.start hwf).revoke _ now).mint hinv)
    ((sessionsOnly_revokeSessions _ now).trans (sessionsOnly_addSession _))
    (coreSame_appendEvent _), .one (.of_text .hostedSessionStarted rfl rfl) rfl⟩

variable {signerId : Option Uuid}

theorem issueSelfSignSession_outcome (hwf : EngineWf s) {userId : Uuid}
    {verifiedEmail : Option JsString}
    (h : issueSelfSignSession deps s userId verifiedEmail signerId now = .ok t) :
    Outcome op s t := by
  simp only [issueSelfSignSession, bind_eq_ok, require_eq_ok, orThrow_eq_ok, pure_eq_ok] at h
  obtain ⟨target, -, r, hlock, -, -, minted, hmint, rfl⟩ := h
  obtain ⟨hsign, hid, hinv⟩ := lockForSessionIssue_ok hlock
  obtain rfl := mintSession_ok hmint
  exact ⟨.of_minted hwf hsign ((SessionsFrom.start hwf).mint (hid ▸ hinv))
    (sessionsOnly_addSession _) (coreSame_appendEvent _),
    .one (.of_text .selfSignSessionIssued rfl rfl) rfl⟩

theorem mintInbox_outcome (hwf : EngineWf s) (hsign : s.envelope.status.isSignable = true)
    {signerId : Uuid} (hinv : Invitable s signerId) {linkExpiry now : Nat} {claim : InboxClaim}
    (h : mintInbox deps s signerId linkExpiry now claim = .ok t) : Outcome op s t := by
  simp only [mintInbox, bind_eq_ok, pure_eq_ok] at h
  obtain ⟨minted, hmint, rfl⟩ := h
  obtain rfl := mintSession_ok hmint
  refine ⟨.of_minted hwf hsign ((SessionsFrom.start hwf).mint hinv) (sessionsOnly_addSession _)
    (coreSame_appendEvent _), .one (.of_text .recipientInboxSessionIssued rfl ?_) rfl⟩
  cases claim <;> rfl

theorem lockInboxEnvelope_ok {x : Unit} (h : lockInboxEnvelope s now = .ok x) :
    s.envelope.status.isSignable = true := by
  simp only [lockInboxEnvelope, require_eq_ok, Bool.and_eq_true] at h
  exact h.1.1

theorem inboxEligible_awaiting {signer : SignerRow} {email : JsString}
    (h : inboxEligible deps signer email = true) : signer.status.isAwaiting = true := by
  simp only [inboxEligible, Bool.and_eq_true] at h
  exact h.1.2

theorem issueRevalidatedRecipientSession_outcome (hwf : EngineWf s) {userId bindingId : Uuid}
    (h : issueRevalidatedRecipientSession deps s userId bindingId now = .ok t) :
    Outcome op s t := by
  simp only [issueRevalidatedRecipientSession, bind_eq_ok, orThrow_eq_ok, require_eq_ok] at h
  obtain ⟨binding, -, -, -, _, hlock, signer, hfind, -, helig, _, -, linkExpiry, -, hmint⟩ := h
  have hinv := invitable_of_signer? hfind (inboxEligible_awaiting helig)
  exact mintInbox_outcome hwf (lockInboxEnvelope_ok hlock) ((signer?_eq_some hfind).2 ▸ hinv) hmint

theorem issueDiscoveredRecipientSession_outcome (hwf : EngineWf s) {userId signerId : Uuid}
    {proof : Option VerifiedEmailProof}
    (h : issueDiscoveredRecipientSession deps s userId signerId proof now = .ok t) :
    Outcome op s t := by
  simp only [issueDiscoveredRecipientSession, bind_eq_ok, orThrow_eq_ok, require_eq_ok] at h
  obtain ⟨signer, hfind, _, hlock, _, -, -, -, -, -, -, helig, _, -, linkExpiry, -, hmint⟩ := h
  have hinv := invitable_of_signer? hfind (inboxEligible_awaiting helig)
  exact mintInbox_outcome hwf (lockInboxEnvelope_ok hlock) ((signer?_eq_some hfind).2 ▸ hinv) hmint

theorem mem_remindable {r : SignerRow} (h : r ∈ remindable s signerId) :
    r ∈ s.signers ∧ r.status.isAwaiting = true := by
  simp only [remindable, mem_filter] at h
  have hmem : r ∈ (s.signers.filter fun r =>
      r.status.isAwaiting && isSigningRecipient r).insertionSort orderLe := by
    have h := h.1
    split at h
    · exact mem_of_mem_take h
    · exact h
  have hfilter := (perm_insertionSort _ _).subset hmem
  simp only [mem_filter, Bool.and_eq_true] at hfilter
  exact ⟨hfilter.1, hfilter.2.1⟩

theorem applyReminderLimits_sub {history : List ReminderHistoryEntry} {rows rows' : List SignerRow}
    {limits : ReminderLimits}
    (h : applyReminderLimits deps history rows now limits = .ok rows') : ∀ r ∈ rows', r ∈ rows := by
  unfold applyReminderLimits at h
  dsimp only at h
  split at h
  · cases h
  · cases h
  · split at h
    · cases h
    · cases h
      exact fun r hr => mem_of_mem_filter hr

variable {actorRef : JsString}

/-- A reminder mints links for some of the recipients who may be reminded. -/
theorem remindSigner_ok
    {limits : Option ReminderLimits}
    (h : remindSigner deps s actorRef signerId limits now = .ok t) :
    s.envelope.status.isSignable = true ∧ remindable s signerId ≠ [] ∧
      ∃ targets : List SignerRow, (∀ r ∈ targets, r ∈ remindable s signerId) ∧
        ∃ minted, (targets.map (·.id)).foldlM (replaceLink now) s = .ok minted ∧
          CoreSame minted t ∧ Appends (.remindSigner actorRef signerId limits now) s t := by
  have hrecord {payload : Option Payload} (htext : onlyTitleOrReason payload = true) :
      Recorded (.remindSigner actorRef signerId limits now) s none
        LedgerEvent.signatureReminderSent.text payload :=
    ⟨fun heq => absurd heq (by decide), fun _ => ⟨_, _, _, _, rfl⟩, .inl htext⟩
  simp only [remindSigner, bind_eq_ok, require_eq_ok] at h
  obtain ⟨-, hsign, -, -, -, hsome, h⟩ := h
  refine ⟨hsign, by simpa using hsome, ?_⟩
  cases limits with
  | none =>
    simp only [bind_eq_ok, pure_eq_ok] at h
    obtain ⟨_, rfl, minted, hmint, rfl⟩ := h
    exact ⟨_, fun r hr => hr, minted, hmint, coreSame_appendEvent _,
      .one (hrecord rfl) (replaceLinks_events hmint)⟩
  | some limits =>
    simp only [bind_eq_ok, pure_eq_ok] at h
    obtain ⟨targets, htargets, minted, hmint, rfl⟩ := h
    exact ⟨targets, applyReminderLimits_sub htargets, minted, hmint, coreSame_appendEvent _,
      .one (hrecord rfl) (replaceLinks_events hmint)⟩

theorem remindSigner_outcome (hwf : EngineWf s) {limits : Option ReminderLimits}
    (h : remindSigner deps s actorRef signerId limits now = .ok t) :
    Outcome (.remindSigner actorRef signerId limits now) s t := by
  obtain ⟨hsign, -, targets, hsub, minted, hmint, hsame, hevents⟩ := remindSigner_ok h
  have hq : ∀ id ∈ targets.map (·.id), Invitable s id := by
    intro id hid
    obtain ⟨r, hr, rfl⟩ := mem_map.mp hid
    obtain ⟨hmem, hawait⟩ := mem_remindable (hsub r hr)
    exact .inr ⟨r, hmem, rfl, hawait⟩
  obtain ⟨hfrom, honly⟩ := replaceLinks_from hmint (SessionsFrom.start hwf) hq
  exact ⟨.of_minted hwf hsign hfrom honly hsame, hevents⟩

theorem issueInvitation_outcome (hwf : EngineWf s)
    (h : issueInvitation s signerId now = .ok t) : Outcome op s t := by
  unfold issueInvitation at h
  split at h
  · obtain rfl := pure_eq_ok.mp h
    exact .same hwf
  next signer hinvitee =>
    simp only [invitee, bind_eq_ok, require_eq_ok, orThrow_eq_ok, Option.filter_eq_some_iff,
      pure_eq_ok] at hinvitee
    obtain ⟨-, hsign, id, -, r, ⟨hfind, hawait⟩, -, -, -, -, -, -, rfl⟩ := hinvitee
    have hinv := invitable_of_signer? hfind hawait
    obtain ⟨hfrom, honly⟩ := replaceLink_from h (SessionsFrom.start hwf)
      ((signer?_eq_some hfind).2 ▸ hinv)
    exact ⟨.of_minted hwf hsign hfrom honly (CoreSame.refl t), .same (replaceLink_events h)⟩

theorem copies_events (h : Appends op s u) (rows : List SignerRow) :
    Appends op s (rows.foldl (fun s cc => s.appendEvent deps (copyIssuedEvent actorRef cc)) u) := by
  refine Appends.foldl (fun u cc hu => hu.record (.of_text .copyDeliveryIssued rfl ?_)) h
  cases hcc : cc.copyDelivery with
  | none | some d =>
    simp only [copyIssuedEvent, serviceEvent, hcc]
    rfl

theorem send_outcome (hwf : EngineWf s) {full : EnvelopeFull}
    (h : send deps s full actorRef now = .ok t) : Outcome (.send full actorRef now) s t := by
  simp only [send, bind_eq_ok, require_eq_ok, pure_eq_ok] at h
  obtain ⟨-, -, -, -, sent, hsent, invited, hmint, rfl⟩ := h
  have hstart : Appends (.send full actorRef now) s sent := by
    refine (Appends.same rfl).transition hsent
      ⟨fun heq => ?_, fun heq => ?_, .inr ⟨⟨_, _, _, rfl⟩, rfl⟩⟩
    · have hevent : LedgerEvent.envelopeSent = .signerSigned := LedgerEvent.eq_signerSigned heq
      cases hevent
    · have hevent : LedgerEvent.envelopeSent = .signatureReminderSent :=
        LedgerEvent.eq_signatureReminderSent heq
      cases hevent
  have hminted := mintSessions_events hmint
  refine ⟨?_, copies_events (hstart.congr hminted) _⟩
  have hdraft : s.envelope.status = .draft :=
    EnvelopeStatus.eq_draft_of_mem_predecessorsOf_sent (transitionEnvelopeIn_ok hsent).1
  obtain ⟨hopen, hmove⟩ := transition_move hsent rfl
  have hinv : ∀ id, Invitable s id := fun _ => .inl hdraft
  obtain ⟨hfrom, honly⟩ := mintSessions_from hmint
    ((SessionsFrom.start hwf).congr hmove.sessions hmove.nextId) fun n _ => hinv n.signerId
  have hcopies : CoreSame invited ((copyRecipientsAtSend full.signers).foldl
      (fun s cc => s.appendEvent deps (copyIssuedEvent actorRef cc)) invited) :=
    coreSame_foldl (fun s cc => coreSame_appendEvent _) _
  generalize (copyRecipientsAtSend full.signers).foldl _ invited = t at hcopies ⊢
  have hsign : t.envelope.status.isSignable = true := by
    rw [hcopies.status, honly.status, State.setEnvelope_envelope, hmove.status]
    rfl
  refine .ordinary (.of_sessions hwf ?_ (.inr ⟨hopen, hsign⟩) ?_ ?_)
  · exact (hfrom.congr hcopies.sessions hcopies.nextId).minted hsign
  · exact hcopies.routingMode.trans (honly.routingMode.trans hmove.routingMode)
  · exact ⟨rfl, rfl, hcopies.signers.trans (honly.signers.trans hmove.signers),
      hcopies.fields.trans (honly.fields.trans hmove.fields), rfl,
      hcopies.acceptances.trans (honly.acceptances.trans hmove.acceptances),
      hcopies.attempts.trans (honly.attempts.trans hmove.attempts),
      hcopies.payments.trans (honly.payments.trans hmove.payments),
      hcopies.refunds.trans (honly.refunds.trans hmove.refunds),
      hcopies.clock.trans (honly.clock.trans hmove.clock),
      Nat.le_trans hmove.nextId (Nat.le_trans honly.nextId hcopies.nextId)⟩

end

/-! ## Reading the link -/

section

variable {deps : Deps} {s t u : State} {op : Op} {ctx : SessionContext}

theorem startIfSent_ok {status : EnvelopeStatus} {signerId : Uuid}
    (h : startIfSent deps u status signerId = .ok t)
    (hsign : u.envelope.status.isSignable = true) :
    t.envelope.status.isSignable = true ∧
      CoreSame (u.setEnvelope { u.envelope with status := t.envelope.status }) t := by
  unfold startIfSent at h
  split at h
  · obtain ⟨-, hmove⟩ := transition_move h rfl
    exact ⟨hmove.status ▸ rfl, ⟨rfl, hmove.routingMode, hmove.signers, hmove.fields,
      hmove.sessions, hmove.acceptances, hmove.attempts, hmove.payments, hmove.refunds,
      hmove.clock, hmove.nextId⟩⟩
  · obtain rfl := pure_eq_ok.mp h
    exact ⟨hsign, CoreSame.refl _⟩

theorem seen_viewed (now : Nat) (r : SignerRow) :
    Seen r (if r.status.isAwaiting then { r with status := .viewed, viewedAt := some now }
      else r) := by
  split
  · exact ⟨⟨rfl, rfl, rfl, rfl, rfl, rfl⟩, rfl, .inr ⟨‹_›, rfl⟩⟩
  · exact Seen.refl r

theorem exchangeToken_outcome (hwf : EngineWf s) {sessionId : Uuid}
    (h : (exchangeToken deps s sessionId).map Prod.fst = .ok t) : Outcome op s t := by
  simp only [map_eq_ok, exchangeToken, bind_eq_ok, orThrow_eq_ok] at h
  obtain ⟨r, ⟨session, hfind, status, hlock, h⟩, rfl⟩ := h
  obtain ⟨hsign, -⟩ := lockSignableEnvelope_ok hlock
  have hmem : session ∈ s.sessions := mem_of_find?_eq_some hfind
  have hid : session.id = sessionId := by simpa using find?_some hfind
  split at h
  · obtain rfl := pure_eq_ok.mp h
    exact .same hwf
  next hlive =>
    have hlive : session.status.isLive = true := by simpa using hlive
    split at h
    · obtain rfl := pure_eq_ok.mp h
      refine ⟨.ordinary (.of_sessions hwf (SessionsFrom.kept ?_) (.inl rfl) rfl (CoreSame.refl _)),
        .same rfl⟩
      subst hid
      exact SessionsFrom.updateFound hwf (SessionsFrom.start hwf) hmem hlive
        fun x => ⟨rfl, rfl, rfl, id⟩
    · simp only [bind_eq_ok, pure_eq_ok] at h
      obtain ⟨_, -, _, -, exchanged, hstart, rfl⟩ := h
      obtain ⟨hsign', hcore⟩ := startIfSent_ok hstart hsign
      have hfrom := (SessionsFrom.start (Q := fun _ => False) hwf).updateFound hwf hmem hlive
        (f := fun x => { x with
          status := .active, firstAccessedAt := some (x.firstAccessedAt.getD s.clock)
          lastAccessedAt := some s.clock }) fun x => ⟨rfl, rfl, rfl, id⟩
      have hevents : Appends op s exchanged := by
        refine startIfSent_events ?_ hstart
        exact Appends.congr (.one (.of_text .sessionExchanged rfl rfl) rfl) rfl
      refine ⟨.ordinary ?_, hevents⟩
      exact
        { status := .inr ⟨EnvelopeStatus.not_terminal_of_signable hsign, hsign'⟩
          routingMode := hcore.routingMode
          signers := hcore.signers ▸ seen_updateSigner (seen_viewed s.clock)
          fields := hcore.fields
          sessions := (hfrom.congr hcore.sessions hcore.nextId).kept
          acceptances := hcore.acceptances
          attempts := (AttemptsContinue.start hwf).congr hcore.attempts hcore.nextId
          payments := hcore.payments
          refunds := hcore.refunds
          clock := hcore.clock }

theorem acceptDisclosure_outcome {input : AcceptDisclosureInput}
    (h : acceptDisclosure deps s ctx input = .ok t) : Outcome op s t := by
  simp only [acceptDisclosure, bind_eq_ok, require_eq_ok, pure_eq_ok] at h
  obtain ⟨-, -, _, -, live, hlive, _, -, _, hcode, -, -, rfl⟩ := h
  refine ⟨.accepted (inSession_of_live hlive) hcode rfl (coreSame_appendEvent _),
    .one (.of_text .disclosureAccepted rfl ?_) rfl⟩
  generalize (if live.origin = some .hosted then normalizeAttestedName input.attestedName
    else none) = attested
  cases attested <;> rfl

theorem verifyRecipientAccessCode_outcome (hwf : EngineWf s) {sessionId : Uuid}
    {entered : JsString} {info : RequestMeta}
    (h : (verifyRecipientAccessCode deps s sessionId entered info).map Prod.fst = .ok t) :
    Outcome op s t := by
  simp only [map_eq_ok, verifyRecipientAccessCode, bind_eq_ok, orThrow_eq_ok] at h
  obtain ⟨r, ⟨found, -, _, -, live, hlive, signer, -, h⟩, rfl⟩ := h
  obtain ⟨hmem, hid, -, halive, -⟩ := assertLiveSession_ok hlive
  have hseen : ∀ (r : SignerRow) (n : Nat) (locked : Option Nat), Seen r
      { r with accessCodeFailedCount := n, accessCodeLockedAt := locked } :=
    fun r n locked => ⟨⟨rfl, rfl, rfl, rfl, rfl, rfl⟩, rfl, .inl rfl⟩
  split at h
  · obtain rfl := pure_eq_ok.mp h
    exact .same hwf
  · split at h
    · obtain rfl := pure_eq_ok.mp h
      exact .same hwf
    · split at h
      · obtain rfl := pure_eq_ok.mp h
        obtain rfl : live.id = sessionId := hid
        have hfrom := (SessionsFrom.start (Q := fun _ => False) hwf).updateFound hwf hmem halive
          (f := fun x => { x with accessCodeVerifiedAt := some s.clock })
          fun x => ⟨rfl, rfl, rfl, fun _ => rfl⟩
        exact ⟨.ordinary ⟨.inl rfl, rfl, seen_updateSigner fun r => hseen r _ _, rfl,
          SessionsFrom.kept (hfrom.congr rfl (Nat.le_refl _)), rfl, .start hwf, rfl, rfl, rfl⟩,
          .one (.of_text .accessCodeVerified rfl rfl) rfl⟩
      · split at h
        · obtain rfl := pure_eq_ok.mp h
          have hfrom := (SessionsFrom.start (Q := fun _ => False) hwf).revoke
            (·.signerId == found.signerId) s.clock
          exact ⟨.ordinary ⟨.inl rfl, rfl, seen_updateSigner fun r => hseen r _ _, rfl,
            SessionsFrom.kept (hfrom.congr rfl (Nat.le_refl _)), rfl, .start hwf, rfl, rfl, rfl⟩,
            .congr (.one (.of_text .accessCodeLocked rfl rfl) rfl) rfl⟩
        · obtain rfl := pure_eq_ok.mp h
          have hfrom := SessionsFrom.start (Q := fun _ => False) hwf
          exact ⟨.ordinary ⟨.inl rfl, rfl, seen_updateSigner fun r => hseen r _ _, rfl,
            SessionsFrom.kept (hfrom.congr rfl (Nat.le_refl _)), rfl, .start hwf, rfl, rfl, rfl⟩,
            .one (.of_text .accessCodeFailed rfl rfl) rfl⟩

end

end AramoPlatform.Sign
