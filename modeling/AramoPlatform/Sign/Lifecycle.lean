import AramoPlatform.Sign.EffectFacts

/-!
# The envelope lifecycle

A live session means a signable envelope, and an envelope is completed
exactly when it has a signing recipient and all of them have signed. Both
hold in every reachable state, whatever the order of the calls, so a
terminal envelope never has a live session again.
-/

namespace AramoPlatform.Sign

open Js Lib

structure Lifecycle (s : State) : Prop where
  live : ∀ x ∈ s.sessions, x.status.isLive = true → s.envelope.status.isSignable = true
  completed : s.envelope.status = .completed ↔ allSigningRecipientsSigned s.signers = true

variable {deps : Deps} {s t u : State} {op : Op}

/-! ## Live sessions -/

theorem ended_of_core {target : EnvelopeStatus} (hterminal : target.isTerminal = true)
    (h : CoreSame (endCore u target) t) :
    t.envelope.status.isTerminal = true ∧ ∀ x ∈ t.sessions, x.status.isLive = false := by
  refine ⟨h.status ▸ hterminal, fun x hx => ?_⟩
  rw [h.sessions] at hx
  rcases of_mem_updateWhere hx with ⟨-, hp⟩ | ⟨y, -, -, rfl⟩
  · simpa using hp
  · rfl

/-- After a step the status is as before, or signable, or terminal with nothing
live. -/
theorem Effect.status_cases (h : Effect s op t) :
    (t.envelope.status = s.envelope.status ∨ t.envelope.status.isSignable = true) ∨
      t.envelope.status.isTerminal = true ∧ ∀ x ∈ t.sessions, x.status.isLive = false := by
  cases h with
  | ordinary h => exact .inl (h.status.imp_right And.right)
  | completed _ _ _ _ h | declined _ _ _ h => exact .inr (ended_of_core rfl h)
  | closed _ hterminal _ h => exact .inr (ended_of_core hterminal h)
  | paid _ _ _ _ h => exact .inl (.inl (by rw [h.status, (paidCore_envelope _ _ _).1]))
  | delegated h => exact .inl (.inl h.core.status)
  | accepted _ _ _ h | filled _ _ _ _ _ h | signed _ _ _ _ h
  | paymentMoved _ _ _ h | fieldsRemoved _ h => exact .inl (.inl h.status)

theorem Effect.live (hwf : EngineWf s) (h : Effect s op t) (hinv : Lifecycle s) :
    ∀ x ∈ t.sessions, x.status.isLive = true → t.envelope.status.isSignable = true := by
  intro x hx hlive
  rcases h.status_cases with hstatus | ⟨-, hnone⟩
  · rcases (h.sessions hwf).origin x hx with ⟨y, hy, -, hkept⟩ | ⟨-, hminted⟩
    · have hsign := hinv.live y hy (hkept.live hlive)
      rcases hstatus with hsame | hsign'
      · rwa [hsame]
      · exact hsign'
    · exact hminted.signable
  · simp [hnone x hx] at hlive

/-! ## Completion -/

theorem allSigned_of_forall₂ {old new : List SignerRow}
    (h : List.Forall₂ (fun y x => x.recipientKind = y.recipientKind ∧
      (x.status = .signed → y.status = .signed)) old new)
    (hall : allSigningRecipientsSigned new = true) : allSigningRecipientsSigned old = true := by
  rw [allSigningRecipientsSigned_iff] at hall ⊢
  obtain ⟨⟨x, hx, hsigning⟩, hsigned⟩ := hall
  constructor
  · obtain ⟨y, hy, hkind, -⟩ := exists_old_of_mem h hx
    refine ⟨y, hy, ?_⟩
    simpa only [isSigningRecipient, hkind] using hsigning
  · intro y hy hsigning
    obtain ⟨x, hx, hkind, himp⟩ := exists_new_of_mem h hy
    refine himp (hsigned x hx ?_)
    simpa only [isSigningRecipient, hkind] using hsigning

theorem Seen.signed_iff {y x : SignerRow} (h : Seen y x) :
    x.status = .signed ↔ y.status = .signed := by
  rcases h.status with hsame | ⟨hy, hx⟩
  · rw [hsame]
  · constructor <;> intro hs
    · simp [hs, SignerStatus.isAwaiting] at hx
    · simp [hs, SignerStatus.isAwaiting] at hy

theorem allSigned_of_seen {old new : List SignerRow} (h : List.Forall₂ Seen old new) :
    allSigningRecipientsSigned new = allSigningRecipientsSigned old := by
  rw [Bool.eq_iff_iff]
  constructor
  · exact allSigned_of_forall₂ (h.imp fun _ _ hs => ⟨hs.recipientKind, hs.signed_iff.mp⟩)
  · exact allSigned_of_forall₂
      (h.flip.imp fun _ _ hs => ⟨hs.recipientKind.symm, hs.signed_iff.mpr⟩)

theorem allSigned_of_updateSigner {g : SignerRow → SignerRow} {id : Uuid}
    (hg : ∀ r, SlotKept r (g r) ∧ (g r).status ≠ .signed)
    (hall : allSigningRecipientsSigned (s.updateSigner id g).signers = true) :
    allSigningRecipientsSigned s.signers = true := by
  refine allSigned_of_forall₂ (forall₂_updateWhere (fun r _ _ => ⟨rfl, fun hs => hs⟩) ?_) hall
  exact fun r _ _ => ⟨(hg r).1.recipientKind, fun hs => absurd hs (hg r).2⟩

theorem ne_completed_of_not_terminal (h : s.envelope.status.isTerminal = false) :
    s.envelope.status ≠ .completed := by
  intro hc
  simp [hc, EnvelopeStatus.isTerminal] at h

theorem Effect.completed_iff (h : Effect s op t) (hinv : Lifecycle s) :
    t.envelope.status = .completed ↔ allSigningRecipientsSigned t.signers = true := by
  -- neither side holds: the envelope is open, and not everybody has signed
  have hopen : s.envelope.status.isTerminal = false →
      (allSigningRecipientsSigned t.signers = true → allSigningRecipientsSigned s.signers = true) →
      t.envelope.status ≠ .completed →
      (t.envelope.status = .completed ↔ allSigningRecipientsSigned t.signers = true) := by
    intro hs himp ht
    refine iff_of_false ht fun hall => ?_
    exact ne_completed_of_not_terminal hs (hinv.completed.mpr (himp hall))
  have hsame : t.envelope.status = s.envelope.status → t.signers = s.signers →
      (t.envelope.status = .completed ↔ allSigningRecipientsSigned t.signers = true) := by
    intro hstatus hsigners
    rw [hstatus, hsigners]
    exact hinv.completed
  cases h with
  | ordinary h =>
    rcases h.status with hstatus | ⟨hs, ht⟩
    · rw [hstatus, allSigned_of_seen h.signers]
      exact hinv.completed
    · refine hopen hs (fun hall => allSigned_of_seen h.signers ▸ hall) ?_
      exact ne_completed_of_not_terminal (EnvelopeStatus.not_terminal_of_signable ht)
  | delegated h =>
    have hs := EnvelopeStatus.not_terminal_of_signable h.signable
    refine hopen hs (fun hall => ?_) (h.core.status ▸ ne_completed_of_not_terminal hs)
    rw [h.core.signers] at hall
    exact allSigned_of_updateSigner (fun r => ⟨(h.writes r).1, by simp [(h.writes r).2.1]⟩) hall
  | signed hmay _ _ hrest h =>
    have hs := EnvelopeStatus.not_terminal_of_signable hmay.signable
    rw [h.status, h.signers, hrest]
    exact iff_of_false (ne_completed_of_not_terminal hs) (by simp)
  | completed _ _ _ hall h =>
    rw [h.status, h.signers]
    exact iff_of_true rfl hall
  | declined hsign _ hg h =>
    refine hopen (EnvelopeStatus.not_terminal_of_signable hsign) (fun hall => ?_) ?_
    · rw [h.signers] at hall
      exact allSigned_of_updateSigner (fun r => ⟨(hg r).1, by simp [(hg r).2.1]⟩) hall
    · rw [h.status]
      simp [endCore]
  | closed hs _ hne h =>
    refine hopen hs (fun hall => h.signers ▸ hall) ?_
    rw [h.status]
    exact hne
  | paid _ _ _ _ h =>
    exact hsame (by rw [h.status, (paidCore_envelope _ _ _).1])
      (h.signers.trans (paidCore_signers _ _ _))
  | accepted _ _ _ h | filled _ _ _ _ _ h | paymentMoved _ _ _ h | fieldsRemoved _ h =>
    exact hsame h.status h.signers

/-! ## Over runs -/

theorem Initial.lifecycle (h : Initial s) : Lifecycle s where
  live := by simp [h.noSessions]
  completed := by
    refine iff_of_false (by simp [h.draft]) fun hall => ?_
    obtain ⟨⟨r, hr, hsigning⟩, hsigned⟩ := allSigningRecipientsSigned_iff.mp hall
    exact absurd (hsigned r hr hsigning) (by simp [h.pending r hr])

theorem step_lifecycle {call : Call} (h : EngineWf s ∧ Lifecycle s)
    (hstep : engineStep deps s call t) : EngineWf t ∧ Lifecycle t := by
  obtain ⟨hwf, heffect⟩ := step_effect h.1 hstep
  have hinv : Lifecycle (s.at call.time) := ⟨h.2.live, h.2.completed⟩
  exact ⟨heffect.wf hwf, heffect.live hwf hinv, heffect.completed_iff hinv⟩

theorem run_lifecycle {calls : List Call} (hinit : Initial s)
    (hrun : Run (engineStep deps) s calls t) : EngineWf t ∧ Lifecycle t :=
  hrun.invariant (fun _ _ _ h hstep => step_lifecycle h hstep) ⟨hinit.wf, hinit.lifecycle⟩

theorem step_terminal {call : Call} (hwf : EngineWf s) (hstep : engineStep deps s call t)
    (hterminal : s.envelope.status.isTerminal = true) :
    t.envelope.status = s.envelope.status :=
  ((step_effect hwf hstep).2.terminal hterminal).1

theorem run_terminal {calls : List Call} (hwf : EngineWf s)
    (hrun : Run (engineStep deps) s calls t) (hterminal : s.envelope.status.isTerminal = true) :
    t.envelope.status = s.envelope.status := by
  induction hrun with
  | nil _ => rfl
  | cons hstep _ ih =>
    have hone := step_terminal hwf hstep hterminal
    rw [ih (step_wf hwf hstep) (hone ▸ hterminal), hone]

/-- **The envelope lifecycle.** In every reachable state the envelope is
completed exactly when it has a signing recipient and all of them have
signed; once it is terminal, its status is the same in every later state and
no session is live there. -/
theorem lifecycle_invariant {calls calls' : List Call} (hinit : Initial s)
    (hrun : Run (engineStep deps) s calls t) (hrun' : Run (engineStep deps) t calls' u) :
    (t.envelope.status = .completed ↔
      (∃ r ∈ t.signers, isSigningRecipient r = true) ∧
        ∀ r ∈ t.signers, isSigningRecipient r = true → r.status = .signed) ∧
      (t.envelope.status.isTerminal = true → u.envelope.status = t.envelope.status ∧
        ∀ x ∈ u.sessions, x.status.isLive = false) := by
  obtain ⟨hwf, hinv⟩ := run_lifecycle hinit hrun
  refine ⟨hinv.completed.trans allSigningRecipientsSigned_iff, fun hterminal => ?_⟩
  have hstatus := run_terminal hwf hrun' hterminal
  obtain ⟨-, hinv'⟩ := run_lifecycle hinit (hrun.append hrun')
  refine ⟨hstatus, fun x hx => ?_⟩
  cases hlive : x.status.isLive with
  | false => rfl
  | true =>
    have hsign := EnvelopeStatus.not_terminal_of_signable (hinv'.live x hx hlive)
    rw [hstatus, hterminal] at hsign
    cases hsign

/-- One signer, one signature field. -/
def oneSigner : State :=
  newDraft .parallel [newSigner 1 (js "ada@example.com")] [newField 10 1 .signature]

theorem oneSigner_initial : Initial oneSigner :=
  newDraft_initial (by decide) (by decide) (by simp [newSigner]) (by simp [newField])

/-- The signer accepts the disclosure, fills the field and completes. -/
def oneSignerSigns : List Call :=
  [sendNow oneSigner 0, ⟨1, .acceptDisclosure ⟨100, 1⟩ ⟨js "2026-01", js "text-hash", none, {}⟩⟩,
    ⟨2, .fillField ⟨100, 1⟩ 10 ⟨js "Ada", some .typed⟩⟩, ⟨3, .completeSigner ⟨100, 1⟩ none⟩]

theorem lifecycle_invariant_oneSigner :
    ∃ t u, Run (engineStep plainDeps) oneSigner oneSignerSigns t ∧
      Run (engineStep plainDeps) t [⟨9, .finishIntent 101 .sent none⟩] u ∧
      t.envelope.status = .completed ∧ (∀ r ∈ t.signers, isSigningRecipient r = true →
        r.status = .signed) ∧ ∀ x ∈ u.sessions, x.status.isLive = false := by
  obtain ⟨t, hrun, ht⟩ := engineRun_of_exec plainDeps oneSigner oneSignerSigns
    (fun t => t.envelope.status == .completed &&
      (exec (engineNext plainDeps) t [⟨9, .finishIntent 101 .sent none⟩]).any fun _ => true) rfl
  simp only [Bool.and_eq_true, beq_iff_eq] at ht
  obtain ⟨u, hrun', -⟩ := engineRun_of_exec _ _ _ _ ht.2
  obtain ⟨hcompleted, hterminal⟩ := lifecycle_invariant oneSigner_initial hrun hrun'
  exact ⟨t, u, hrun, hrun', ht.1, (hcompleted.mp ht.1).2, (hterminal (by rw [ht.1]; rfl)).2⟩

/-! ## The ledger and the fields over a run -/

/-- **Who signed is on record.** A run only adds to the ledger, and each new
event is one that a call of the run records, in the state that it came upon. -/
theorem ledger_only_grows {calls : List Call} (hwf : EngineWf s)
    (hrun : Run (engineStep deps) s calls t) :
    ∃ new, t.events = s.events ++ new ∧ ∀ e ∈ new, ∃ before call after mid,
      calls = before ++ call :: after ∧ Run (engineStep deps) s before mid ∧
        Recorded call.op (mid.at call.time) e.signerId e.eventType e.payload := by
  induction hrun with
  | nil s => exact ⟨[], (List.append_nil _).symm, by simp⟩
  | cons hstep _ ih =>
    obtain ⟨new, hnew, hrecorded⟩ := ih (step_wf hwf hstep)
    obtain ⟨first, hfirst, hone⟩ := (run_outcome (hwf.at _) hstep.2).events
    refine ⟨first ++ new, by rw [hnew, hfirst, List.append_assoc]; rfl, fun e he => ?_⟩
    rcases List.mem_append.mp he with he | he
    · exact ⟨[], _, _, _, rfl, .nil _, hone e he⟩
    · obtain ⟨before, call, after, mid, rfl, hbefore, hrec⟩ := hrecorded e he
      exact ⟨_ :: before, call, after, mid, rfl, .cons hstep hbefore, hrec⟩

/-- The completion of the envelope is on record as what the last call of the run records. -/
theorem ledger_only_grows_oneSigner : ∃ t, Run (engineStep plainDeps) oneSigner oneSignerSigns t ∧
    ∃ e ∈ t.events, e.eventType = js "ENVELOPE_COMPLETED" ∧ ∃ before call after mid,
      oneSignerSigns = before ++ call :: after ∧
        Run (engineStep plainDeps) oneSigner before mid ∧
        Recorded call.op (mid.at call.time) e.signerId e.eventType e.payload := by
  obtain ⟨t, hrun, ht⟩ := engineRun_of_exec plainDeps oneSigner oneSignerSigns
    (fun t => t.events.any (·.eventType == js "ENVELOPE_COMPLETED")) rfl
  obtain ⟨e, he, htype⟩ := List.any_eq_true.mp ht
  obtain ⟨new, hnew, hrecorded⟩ := ledger_only_grows oneSigner_initial.wf hrun
  -- the draft has no events
  have hin : e ∈ new := (List.mem_append.mp (hnew ▸ he : e ∈ [] ++ new)).resolve_left nofun
  exact ⟨t, hrun, e, he, eq_of_beq htype, hrecorded e hin⟩

/-- **A terminal envelope keeps its fields**, and what was filled into them. -/
theorem terminal_fields_frozen {calls : List Call} (hwf : EngineWf s)
    (hrun : Run (engineStep deps) s calls t) (hterminal : s.envelope.status.isTerminal = true) :
    t.fields = s.fields := by
  induction hrun with
  | nil _ => rfl
  | cons hstep _ ih =>
    obtain ⟨hstatus, hfields⟩ := (step_effect hwf hstep).2.terminal hterminal
    rw [ih (step_wf hwf hstep) (hstatus ▸ hterminal), hfields]
    rfl

theorem terminal_fields_frozen_oneSigner : ∃ t u,
    Run (engineStep plainDeps) oneSigner oneSignerSigns t ∧
      Run (engineStep plainDeps) t [⟨9, .finishIntent 101 .sent none⟩] u ∧ u.fields = t.fields := by
  obtain ⟨t, hrun, ht⟩ := engineRun_of_exec plainDeps oneSigner oneSignerSigns
    (fun t => t.envelope.status.isTerminal &&
      (exec (engineNext plainDeps) t [⟨9, .finishIntent 101 .sent none⟩]).any fun _ => true) rfl
  obtain ⟨hterminal, hnext⟩ := Bool.and_eq_true_iff.mp ht
  obtain ⟨u, hrun', -⟩ := engineRun_of_exec _ _ _ _ hnext
  exact ⟨t, u, hrun, hrun',
    terminal_fields_frozen (run_lifecycle oneSigner_initial hrun).1 hrun' hterminal⟩

end AramoPlatform.Sign
