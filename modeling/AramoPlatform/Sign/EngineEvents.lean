import AramoPlatform.Sign.EngineEffects

/-!
# What the engine records

The ledger is only ever appended to. `Recorded` says which events an operation
appends, as far as anything depends on it: `SIGNER_SIGNED` comes from the
completion of that signer alone, and the members that carry typed text are
`title` and `reason`, but for the sender's message in `ENVELOPE_SENT`. An
`Outcome` is what an operation does to the rows and to the ledger.
-/

namespace AramoPlatform.Sign

open Js Lib

def PayloadValue.isTyped : PayloadValue → Bool
  | typed _ => true
  | _ => false

/-- Typed text stands under `title` and `reason` only. -/
def onlyTitleOrReason (payload : Option Payload) : Bool :=
  payload.all fun p => p.members.all fun m =>
    !m.2.isTyped || m.1 == js "title" || m.1 == js "reason"

/-- What holds of an event that `op` appends in `s`. -/
structure Recorded (op : Op) (s : State) (signerId : Option Uuid) (eventType : JsString)
    (payload : Option Payload) : Prop where
  signing : eventType = LedgerEvent.signerSigned.text →
    ∃ ctx attested, op = .completeSigner ctx attested ∧ signerId = some ctx.signerId
  reminder : eventType = LedgerEvent.signatureReminderSent.text →
    ∃ actorRef signerId limits now, op = .remindSigner actorRef signerId limits now
  text : onlyTitleOrReason payload = true ∨
    (∃ full actorRef now, op = .send full actorRef now) ∧ payload = sentPayload s.envelope.message

/-- The ledger of `t` is that of `s` with events of `op` after it. -/
def Appends (op : Op) (s t : State) : Prop :=
  ∃ new : List (EventRow (Option Payload)), t.events = s.events ++ new ∧
    ∀ e ∈ new, Recorded op s e.signerId e.eventType e.payload

variable {deps : Deps} {op : Op} {s t u : State} {ctx : SessionContext}

variable {signerId : Option Uuid}

theorem Recorded.of_text (event : LedgerEvent) {payload : Option Payload}
    (hne : (event == .signerSigned || event == .signatureReminderSent) = false)
    (htext : onlyTitleOrReason payload = true) : Recorded op s signerId event.text payload where
  signing heq := by simp [LedgerEvent.eq_signerSigned heq] at hne
  reminder heq := by simp [LedgerEvent.eq_signatureReminderSent heq] at hne
  text := .inl htext

namespace Appends

theorem same (h : t.events = s.events) : Appends op s t := ⟨[], by simp [h], by simp⟩

theorem congr (h : Appends op s u) (heq : t.events = u.events) : Appends op s t := by
  obtain ⟨new, hnew, hrec⟩ := h
  exact ⟨new, heq.trans hnew, hrec⟩

theorem record (h : Appends op s u) {input : AppendEventInput (Option Payload)}
    (hrec : Recorded op s input.signerId input.eventType input.payload) :
    Appends op s (u.appendEvent deps input) := by
  obtain ⟨new, hnew, hold⟩ := h
  refine ⟨new ++ [newEvent deps.sha256Hex payloadJson (deps.uuidText deps.envelopeId)
    (terminalEventHash u.events) input u.clock (deps.eventId u.events.length)], ?_, fun e he => ?_⟩
  · rw [State.appendEvent_events, Sign.appendEvent, hnew, List.append_assoc]
  · rcases (List.mem_append.mp he).imp_right List.mem_singleton.mp with he | rfl
    · exact hold e he
    · exact hrec

theorem one {input : AppendEventInput (Option Payload)}
    (hrec : Recorded op s input.signerId input.eventType input.payload)
    (heq : u.events = s.events) : Appends op s (u.appendEvent deps input) :=
  (Appends.same heq).record hrec

theorem transition (h : Appends op s u) {input : TransitionEnvelopeInput}
    (hmove : transitionEnvelopeIn deps u input = .ok t)
    (hrec : Recorded op s input.event.signerId input.event.eventType input.event.payload) :
    Appends op s t := by
  obtain ⟨-, rfl⟩ := transitionEnvelopeIn_ok hmove
  refine Appends.record (h.congr ?_) hrec
  split <;> rfl

theorem foldl {α : Type} {f : State → α → State} {rows : List α}
    (hf : ∀ u a, Appends op s u → Appends op s (f u a)) (h : Appends op s u) :
    Appends op s (rows.foldl f u) := by
  induction rows generalizing u with
  | nil => exact h
  | cons a rest ih => exact ih (hf u a h)

end Appends

/-! ## Parts of the operations -/

theorem startIfSent_events {status : EnvelopeStatus} {signerId : Uuid} (h : Appends op s u)
    (hstart : startIfSent deps u status signerId = .ok t) : Appends op s t := by
  unfold startIfSent at hstart
  split at hstart
  · exact h.transition hstart (.of_text .envelopeInProgress rfl rfl)
  · obtain rfl := pure_eq_ok.mp hstart
    exact h

theorem mintSessions_events {new : List State.NewSession} (h : u.mintSessions new = .ok t) :
    t.events = u.events := by
  induction new generalizing u with
  | nil =>
    obtain rfl : u = t := pure_eq_ok.mp h
    rfl
  | cons n rest ih =>
    simp only [State.mintSessions, List.foldlM_cons, bind_eq_ok] at h
    obtain ⟨w, hmint, hrest⟩ := h
    obtain rfl := mintSession_ok hmint
    have htail : (u.addSession n).mintSessions rest = .ok t := hrest
    exact (ih htail).trans rfl

theorem recordIntent_events (signerId : Uuid) : (recordIntent u signerId).events = u.events := by
  unfold recordIntent
  split <;> rfl

theorem inviteNext_events (signerId : Uuid) : (inviteNext u signerId).events = u.events := by
  have hfold : ∀ (rows : List SignerRow) (u : State),
      (rows.foldl (fun s w => recordIntent s w.id) u).events = u.events := by
    intro rows
    induction rows with
    | nil => exact fun _ => rfl
    | cons w rest ih => exact fun u => (ih _).trans (recordIntent_events w.id)
  unfold inviteNext
  split
  · split
    · exact recordIntent_events _
    · rfl
  · exact hfold _ u

theorem signRows_events (deps : Deps) (s : State) (ctx : SessionContext)
    (attested : Option JsString) (live : SigningSessionRow) (me : SignerRow)
    (profileName : JsString) :
    Appends (.completeSigner ctx attested) s (signRows deps s ctx live me profileName) := by
  have hsigned : onlyTitleOrReason (signedPayload deps live) = true := by
    unfold signedPayload
    split
    · cases live.hostUserId <;> rfl
    · cases live.authenticatedUserId <;> rfl
    · rfl
  have hrecord : Appends (.completeSigner ctx attested) s
      ((((s.updateFields (fun f => f.signerId == some ctx.signerId && isServerFilledName f)
        fun f => { f with
          value := some profileName, signatureMethod := none
          filledAt := some s.clock }).updateSigner ctx.signerId fun r =>
        { r with status := .signed, signedAt := some s.clock }).updateSession ctx.sessionId
          fun x => { x with status := .completed, completedAt := some s.clock }).appendEvent deps
            (signerEvent deps .signerSigned ctx.signerId (signedPayload deps live))) := by
    refine .one ⟨fun _ => ⟨ctx, attested, rfl, rfl⟩, fun heq => ?_, .inl hsigned⟩ rfl
    have hevent : LedgerEvent.signerSigned = .signatureReminderSent :=
      LedgerEvent.eq_signatureReminderSent heq
    cases hevent
  unfold signRows
  dsimp only
  split
  · split
    · exact hrecord.record (.of_text .witnessAttested rfl rfl)
    · exact hrecord
  · exact hrecord

theorem replaceLink_events {now : Nat} {signerId : Uuid} (h : replaceLink now u signerId = .ok t) :
    t.events = u.events := by
  obtain rfl := mintSession_ok h
  rfl

theorem replaceLinks_events {now : Nat} {ids : List Uuid}
    (h : ids.foldlM (replaceLink now) u = .ok t) : t.events = u.events := by
  induction ids generalizing u with
  | nil =>
    obtain rfl : u = t := pure_eq_ok.mp h
    rfl
  | cons id rest ih =>
    simp only [List.foldlM_cons, bind_eq_ok] at h
    obtain ⟨w, hlink, hrest⟩ := h
    exact (ih hrest).trans (replaceLink_events hlink)

theorem settledPayload_text (attempt : IdentityAttemptRow) (detail : SettledDetail) :
    onlyTitleOrReason (some (settledPayload deps attempt detail)) = true := by
  cases hreference : attempt.vendorReference <;>
    cases detail with
    | verified country => cases country <;> simp only [settledPayload, hreference] <;> rfl
    | nameMismatch | failed reason | cancelled => simp only [settledPayload, hreference]; rfl

/-- What `op` does: one of the effects on the rows, and the ledger goes on. -/
structure Outcome (op : Op) (s t : State) : Prop where
  effect : Effect s op t
  events : Appends op s t

theorem Outcome.same (hwf : EngineWf s) : Outcome op s s :=
  ⟨.ordinary ((CoreSame.refl s).ordinary hwf), .same rfl⟩

end AramoPlatform.Sign
