import AramoPlatform.Sign.EffectFacts

/-!
# What counts for a delegate

After a delegation the original recipient's sessions are over, so whatever
the slot does next it does in a session minted for the delegate. The
disclosure gate looks at `delegated_at`; the identity gate does not, and
takes any `VERIFIED` attempt of the slot.

Everything the gates accept is the delegate's own when, at the delegation,
the slot has no verified or pending attempt for its method, and its last
acceptance is of an earlier millisecond.
-/

namespace AramoPlatform.Sign

open Js Lib List

/-- At the delegation, nothing of the slot can count later on: no attempt for
its method is `VERIFIED` or can still become so, and no acceptance falls in
the millisecond of `delegated_at`. -/
structure CleanSlot (s : State) (signerId : Uuid) (now : Nat) : Prop where
  attempts : ∀ r ∈ s.signers, r.id = signerId → ∀ a ∈ s.attempts, a.signerId = signerId →
    r.identityVerificationMethod = some a.method → a.status ≠ .verified ∧ a.status ≠ .pending
  acceptances : ∀ a ∈ s.acceptances, a.signerId = signerId → a.acceptedAt < now

/-- What the slot holds in `t` was made after the delegation that gave `d`:
the acceptance, the access code and the verified attempt. -/
structure ClearedAfter (d t : State) (signerId : Uuid) : Prop where
  accepted : ∃ a ∈ t.acceptances, a ∉ d.acceptances ∧ a.signerId = signerId ∧
    d.clock ≤ a.acceptedAt ∧ ∀ x ∈ d.sessions, x.id ≠ a.sessionId
  code : ∀ r ∈ t.signers, r.id = signerId → r.accessCodeHash.isSome = true →
    ∃ x ∈ t.sessions, x.signerId = signerId ∧ (∀ y ∈ d.sessions, y.id ≠ x.id) ∧
      x.accessCodeVerifiedAt.isSome = true
  verified : ∀ r ∈ t.signers, r.id = signerId → ∀ m, r.identityVerificationMethod = some m →
    ∃ a ∈ t.attempts, a.signerId = signerId ∧ a.method = m ∧ a.status = .verified ∧
      d.clock ≤ a.createdAt ∧ ∀ b ∈ d.attempts, b.id ≠ a.id

/-- One of the four gated operations succeeds for `ctx`. -/
inductive Acts (deps : Deps) (t : State) (ctx : SessionContext) : Prop
  | fill {fieldId : Uuid} {input : FillInput} {u : State}
      (h : fillField t ctx fieldId input = .ok u)
  | complete {attested : Option JsString} {u : State}
      (h : completeSigner deps t ctx attested = .ok u)
  | view {attested : Option JsString} {v : SignerDocumentView}
      (h : getSignerDocumentView t ctx attested = .ok v)
  | source {documentId : Uuid} {v : SignerSourceDescriptor}
      (h : resolveSignerSource t ctx documentId = .ok v)

variable {deps : Deps} {s d t u : State} {op : Op} {ctx : SessionContext} {k : Uuid}

/-! ## The gates -/

theorem Acts.gates (h : Acts deps t ctx) : assertMaySign t ctx = .ok () := by
  cases h with
  | fill h =>
    simp only [fillField, bind_eq_ok] at h
    obtain ⟨_, -, _, -, _, hgates, -⟩ := h
    exact hgates
  | complete h =>
    simp only [completeSigner, bind_eq_ok] at h
    obtain ⟨_, -, _, -, _, hgates, -⟩ := h
    exact hgates
  | view h =>
    simp only [getSignerDocumentView, bind_eq_ok] at h
    obtain ⟨_, hgates, -⟩ := h
    exact hgates
  | source h =>
    simp only [resolveSignerSource, bind_eq_ok] at h
    obtain ⟨_, hgates, -⟩ := h
    exact hgates

theorem accessCode_ok (hwf : EngineWf s) (h : assertAccessCodeCleared s ctx = .ok ())
    {r : SignerRow} (hr : r ∈ s.signers) (hid : r.id = ctx.signerId)
    (hcode : r.accessCodeHash.isSome = true) :
    ∃ x ∈ s.sessions, x.id = ctx.sessionId ∧ x.accessCodeVerifiedAt.isSome = true := by
  have hfind : (s.signer? ctx.signerId).filter (·.accessCodeHash.isSome) = some r := by
    rw [← hid, signer?_of_mem hwf.signerIds hr]
    simp [hcode]
  simp only [assertAccessCodeCleared, hfind, bind_eq_ok, require_eq_ok, Option.any_eq_true] at h
  obtain ⟨-, -, x, hx, hverified⟩ := h
  exact ⟨x, mem_of_find?_eq_some hx, by simpa using find?_some hx, hverified⟩

theorem acceptance_of_gate (hwf : EngineWf s) {r : SignerRow} (hr : r ∈ s.signers) {since : Nat}
    (hsince : r.delegatedAt = some since) (h : hasAcceptedDisclosure s r.id = true) :
    ∃ a ∈ s.acceptances, a.signerId = r.id ∧ since ≤ a.acceptedAt := by
  simp only [hasAcceptedDisclosure, signer?_of_mem hwf.signerIds hr, Option.bind_some, hsince,
    Option.all_some, any_eq_true, Bool.and_eq_true, beq_iff_eq, decide_eq_true_eq] at h
  exact h

theorem attempt_of_gate (hwf : EngineWf s) {r : SignerRow} (hr : r ∈ s.signers)
    {m : IdentityVerificationMethod} (hm : r.identityVerificationMethod = some m)
    (h : assertIdentityVerificationCleared s r.id = .ok ()) :
    ∃ a ∈ s.attempts, a.signerId = r.id ∧ a.method = m ∧ a.status = .verified := by
  simp only [assertIdentityVerificationCleared, signer?_of_mem hwf.signerIds hr, hm, bind_eq_ok,
    require_eq_ok, any_eq_true, Bool.and_eq_true, beq_iff_eq] at h
  obtain ⟨-, -, a, ha, ⟨hsigner, hmethod⟩, hstatus⟩ := h
  exact ⟨a, ha, hsigner, hmethod, hstatus⟩

/-! ## What a step does to acceptances and delegations -/

/-- A new acceptance is made in a live session of its recipient, past the
access code. -/
theorem Effect.mem_acceptances (h : Effect s op t) {a : AcceptanceRow} (ha : a ∈ t.acceptances) :
    a ∈ s.acceptances ∨ t.sessions = s.sessions ∧
      (∃ session, InSession s ⟨a.sessionId, a.signerId⟩ session) ∧
      assertAccessCodeCleared s ⟨a.sessionId, a.signerId⟩ = .ok () := by
  cases h with
  | ordinary h | filled _ _ _ _ _ h | signed _ _ _ _ h | completed _ _ _ _ h | declined _ _ _ h
  | closed _ _ _ h | paymentMoved _ _ _ h | fieldsRemoved _ h => exact .inl (h.acceptances ▸ ha)
  | @accepted _ _ session b hsession hcode _ h =>
    rw [h.acceptances] at ha
    rcases (mem_append.mp ha).imp_right mem_singleton.mp with hold | rfl
    · exact .inl hold
    · exact .inr ⟨h.sessions, ⟨session, hsession⟩, hcode⟩
  | delegated h => exact .inl (h.core.acceptances ▸ ha)
  | @paid _ _ payment checkout n _ _ _ _ h =>
    have hcore : (paidCore s payment checkout n).acceptances = s.acceptances := by
      unfold paidCore
      split <;> rfl
    exact .inl (hcore ▸ h.acceptances ▸ ha)

/-- A slot that has been delegated keeps its `delegated_at`. -/
def DelegationKept (y x : SignerRow) : Prop :=
  y.delegatedAt.isSome = true → x.delegatedAt = y.delegatedAt

theorem delegationKept_updateSigner {g : SignerRow → SignerRow} {id : Uuid}
    (hg : ∀ r, (g r).delegatedAt = r.delegatedAt) :
    List.Forall₂ DelegationKept s.signers (s.updateSigner id g).signers :=
  forall₂_updateWhere (fun _ _ _ _ => rfl) fun r _ _ _ => hg r

theorem Effect.delegationKept (hwf : EngineWf s) (h : Effect s op t) :
    List.Forall₂ DelegationKept s.signers t.signers := by
  have hrefl : List.Forall₂ DelegationKept s.signers s.signers :=
    forall₂_same.mpr fun _ _ _ => rfl
  cases h with
  | ordinary h => exact h.signers.imp fun _ _ hseen _ => hseen.delegatedAt
  | delegated h =>
    rw [h.core.signers]
    refine forall₂_updateWhere (fun _ _ _ _ => rfl) fun r hr hid hdelegated => ?_
    -- the slot of a delegation has not been delegated before
    obtain ⟨r', hr', hid', hnone, -⟩ := h.slot
    obtain rfl := inj_on_of_nodup_map hwf.signerIds hr hr'
      ((beq_iff_eq.mp hid).trans hid'.symm)
    simp [hnone] at hdelegated
  | signed _ _ hwrites _ h | completed _ _ hwrites _ h =>
    exact h.signers ▸ delegationKept_updateSigner fun r => (hwrites.slot r).2.2
  | declined _ _ hg h => exact h.signers ▸ delegationKept_updateSigner fun r => (hg r).2.2
  | paid _ _ _ _ h => exact (h.signers.trans (paidCore_signers _ _ _)) ▸ hrefl
  | accepted _ _ _ h | filled _ _ _ _ _ h | closed _ _ _ h | paymentMoved _ _ _ h
  | fieldsRemoved _ h => exact h.signers ▸ hrefl

/-! ## After a delegation -/

/-- How the state `t` continues the state `d` right after a delegation of the
slot `k`. -/
structure AfterDelegation (d : State) (k : Uuid) (t : State) : Prop where
  wf : EngineWf t
  clock : d.clock ≤ t.clock
  slots : List.Forall₂ SlotKept d.signers t.signers
  delegated : ∀ r ∈ t.signers, r.id = k → r.delegatedAt = some d.clock
  sessions : Continues (·.id) SessionKept (fun _ => True) d.sessions d.nextId t.sessions t.nextId
  attempts : Continues (·.id) AttemptKept (fun x => d.clock ≤ x.createdAt) d.attempts d.nextId
    t.attempts t.nextId
  ended : ∀ x ∈ d.sessions, x.signerId = k → x.status.isLive = false
  accepted : ∀ a ∈ t.acceptances, a.signerId = k → a ∈ d.acceptances ∨
    (∀ y ∈ d.sessions, y.id ≠ a.sessionId) ∧ ∀ r ∈ t.signers, r.id = k →
      r.accessCodeHash.isSome = true →
        ∃ x ∈ t.sessions, x.id = a.sessionId ∧ x.signerId = k ∧
          x.accessCodeVerifiedAt.isSome = true

theorem AfterDelegation.fresh (h : AfterDelegation d k t) (hd : EngineWf d)
    {x : SigningSessionRow} (hx : x ∈ t.sessions) (hk : x.signerId = k)
    (hlive : x.status.isLive = true) : ∀ y ∈ d.sessions, y.id ≠ x.id := by
  rcases h.sessions.origin x hx with ⟨y, hy, -, hkept⟩ | ⟨hle, -⟩
  · have hend := h.ended y hy (hkept.signerId.symm.trans hk)
    rw [hkept.live hlive] at hend
    cases hend
  · intro y hy heq
    have hlt := hd.sessions.lt y hy
    rw [heq] at hlt
    omega

theorem AfterDelegation.step (h : AfterDelegation d k t) (hd : EngineWf d) {call : Call}
    (hstep : engineStep deps t call u) : AfterDelegation d k u := by
  obtain ⟨hwf, heffect⟩ := step_effect h.wf hstep
  have hclock : d.clock ≤ (t.at call.time).clock := Nat.le_trans h.clock hstep.1
  have hslots := heffect.slots
  have hsessions := heffect.sessions hwf
  refine ⟨heffect.wf hwf, heffect.clock ▸ hclock, ?_, ?_, ?_, ?_, h.ended, ?_⟩
  · exact forall₂_trans SlotKept.trans h.slots hslots
  · intro x hx hid
    obtain ⟨y, hy, hkept, hid'⟩ := exists_old_of_mem
      (forall₂_and (heffect.delegationKept hwf) hslots) hx
    have hdelegated := h.delegated y hy (hid'.id.symm.trans hid)
    exact (hkept (by simp [hdelegated])).trans hdelegated
  · exact h.sessions.trans SessionKept.trans (fun _ _ _ _ => trivial)
      (hsessions.imp fun _ _ _ => trivial)
  · exact h.attempts.trans AttemptKept.trans (fun x y hx hkept => hkept.createdAt ▸ hx)
      ((heffect.attempts hwf).imp fun x _ hx => Nat.le_trans hclock hx)
  · intro a ha hk
    rcases heffect.mem_acceptances ha with hold | ⟨hsame, ⟨session, hsession⟩, hcode⟩
    · refine (h.accepted a hold hk).imp_right fun ⟨hnew, hentered⟩ => ⟨hnew, ?_⟩
      intro r hr hid hhash
      obtain ⟨r₀, hr₀, hslot⟩ := exists_old_of_mem hslots hr
      obtain ⟨x, hx, hxid, hxk, hverified⟩ := hentered r₀ hr₀ (hslot.id.symm.trans hid)
        (hslot.accessCodeHash ▸ hhash)
      obtain ⟨x', hx', hid', hkept⟩ := hsessions.stays x hx
      exact ⟨x', hx', hid'.trans hxid, hkept.signerId.trans hxk, hkept.verified hverified⟩
    · refine .inr ⟨?_, fun r hr hid hhash => ?_⟩
      · have hfresh := h.fresh hd hsession.mem (hsession.signerId.trans hk) hsession.live
        exact fun y hy heq => hfresh y hy (heq.trans hsession.id.symm)
      · obtain ⟨r₀, hr₀, hslot⟩ := exists_old_of_mem hslots hr
        obtain ⟨x, hx, hxid, hverified⟩ := accessCode_ok hwf hcode hr₀
          ((hslot.id.symm.trans hid).trans hk.symm) (hslot.accessCodeHash ▸ hhash)
        obtain rfl := inj_on_of_nodup_map hwf.sessions.nodup hx hsession.mem
          (hxid.trans hsession.id.symm)
        exact ⟨x, hsame ▸ hx, hxid, hsession.signerId.trans hk, hverified⟩

theorem Delegated.after {g : SignerRow → SignerRow} (h : Delegated s ctx g d)
    (hd : EngineWf d) : AfterDelegation d ctx.signerId d where
  wf := hd
  clock := Nat.le_refl _
  slots := forall₂_same.mpr fun r _ => SlotKept.refl r
  delegated := by
    intro r hr hid
    rw [h.core.signers] at hr
    rw [h.core.clock]
    rcases of_mem_updateWhere hr with ⟨-, hne⟩ | ⟨y, -, -, rfl⟩
    · simp [hid] at hne
    · exact (h.writes y).2.2
  sessions := Continues.refl hd.sessions SessionKept.refl
  attempts := Continues.refl hd.attempts AttemptKept.refl
  ended := by
    intro x hx hid
    rw [h.core.sessions] at hx
    rcases of_mem_updateWhere hx with ⟨-, hp⟩ | ⟨y, -, -, rfl⟩
    · simpa [hid] using hp
    · rfl
  accepted := fun a ha _ => .inl ha

theorem AfterDelegation.cleared (h : AfterDelegation d k t) (hd : EngineWf d)
    (hslot : ∃ r ∈ d.signers, r.id = k) (hclean : CleanSlot d k d.clock) {time : Nat}
    (hk : ctx.signerId = k) (hgates : assertMaySign (t.at time) ctx = .ok ()) :
    ClearedAfter d t k := by
  subst hk
  have hwf : EngineWf (t.at time) := h.wf.at time
  simp only [assertMaySign, bind_eq_ok, require_eq_ok] at hgates
  obtain ⟨_, -, _, -, -, haccepted, hidentity⟩ := hgates
  obtain ⟨r₀, hr₀, hid₀⟩ := hslot
  obtain ⟨r, hr, hkept⟩ := exists_new_of_mem h.slots hr₀
  have hid : r.id = ctx.signerId := hkept.id.trans hid₀
  rw [← hid] at haccepted hidentity
  obtain ⟨a, ha, hsigner, hsince⟩ :=
    acceptance_of_gate hwf hr (h.delegated r hr hid) haccepted
  have hnew : a ∉ d.acceptances := fun hold =>
    absurd hsince (Nat.not_le.mpr (hclean.acceptances a hold (hsigner.trans hid)))
  obtain ⟨hfresh, hentered⟩ := (h.accepted a ha (hsigner.trans hid)).resolve_left hnew
  refine ⟨⟨a, ha, hnew, hsigner.trans hid, hsince, hfresh⟩, ?_, ?_⟩
  · intro x hx hxid hhash
    obtain ⟨session, hmem, hsid, hsk, hverified⟩ := hentered x hx hxid hhash
    exact ⟨session, hmem, hsk, fun y hy heq => hfresh y hy (heq.trans hsid), hverified⟩
  · intro x hx hxid m hm
    obtain rfl := inj_on_of_nodup_map h.wf.signerIds hx hr (hxid.trans hid.symm)
    obtain ⟨a, ha, hsigner, hmethod, hstatus⟩ := attempt_of_gate hwf hr hm hidentity
    rcases h.attempts.origin a ha with ⟨b, hb, -, hab⟩ | ⟨hle, hcreated⟩
    · -- an attempt from before was neither verified nor pending, and stays so
      have hbm : r₀.identityVerificationMethod = some b.method := by
        rw [← hkept.identityVerificationMethod, hm, ← hmethod, hab.method]
      obtain ⟨hnv, hnp⟩ := hclean.attempts r₀ hr₀ hid₀ b hb
        (hab.signerId.symm.trans (hsigner.trans hid)) hbm
      exact absurd ((hab.settled hnp).symm.trans hstatus) hnv
    · refine ⟨a, ha, hsigner.trans hid, hmethod, hstatus, hcreated, fun b hb heq => ?_⟩
      have hlt := hd.attempts.lt b hb
      rw [heq] at hlt
      omega

/-- **Nothing the original recipient did counts for the delegate**, when the
slot was clean at the delegation: whatever happens before and after, the
gated operations succeed for the slot only on what was made since. -/
theorem delegate_cleared {calls calls' : List Call} {time time' : Nat} {ctx₀ : SessionContext}
    {input : DelegateInput} (hinit : Initial s) (hrun : Run (engineStep deps) s calls t)
    (hdelegate : engineStep deps t ⟨time, .delegateSigner ctx₀ input⟩ d)
    (hclean : CleanSlot t ctx₀.signerId time) (hrun' : Run (engineStep deps) d calls' u)
    (hk : ctx.signerId = ctx₀.signerId) (hacts : Acts deps (u.at time') ctx) :
    ClearedAfter d u ctx₀.signerId := by
  have hwf : EngineWf t := hrun.invariant (fun _ _ _ h hstep => step_wf h hstep) hinit.wf
  have hd : EngineWf d := step_wf hwf hdelegate
  obtain ⟨g, hby⟩ := delegateSigner_ok hdelegate.2
  have hafter : AfterDelegation d ctx₀.signerId u :=
    hrun'.invariant (fun _ _ _ h hstep => h.step hd hstep) (hby.after hd)
  have hclock : d.clock = time := hby.core.clock
  obtain ⟨r, hr, hid, -⟩ := hby.slot
  have heffect : Effect (t.at time) (.delegateSigner ctx₀ input) d := .delegated hby
  have hslots := heffect.slots
  refine hafter.cleared hd ?_ ⟨?_, ?_⟩ hk hacts.gates
  · obtain ⟨r', hr', hkept⟩ := exists_new_of_mem hslots hr
    exact ⟨r', hr', hkept.id.trans hid⟩
  · intro x hx hxid a ha hsigner hmethod
    obtain ⟨y, hy, hkept⟩ := exists_old_of_mem hslots hx
    rw [hby.core.attempts] at ha
    exact hclean.attempts y hy (hkept.id.symm.trans hxid) a ha hsigner
      (hkept.identityVerificationMethod ▸ hmethod)
  · intro a ha hsigner
    rw [hby.core.acceptances] at ha
    exact hclock ▸ hclean.acceptances a ha hsigner

/-! ## Two delegations -/

/-- A signer asked for an access code and an identity check. -/
def checkedSigner : State :=
  newDraft .parallel
    [{ newSigner 1 (js "ada@example.com") with
        accessCodeHash := some (js "4711"), identityVerificationMethod := some .idVerification }]
    [newField 10 1 .signature]

theorem checkedSigner_initial : Initial checkedSigner :=
  newDraft_initial (by decide) (by decide) (by simp [newSigner]) (by simp [newField])

/-- The signer enters the code and reads the disclosure, no more. -/
def beforeDelegation : List Call :=
  [sendNow checkedSigner 0, ⟨1, .verifyRecipientAccessCode 100 (js "4711") {}⟩,
    ⟨2, .acceptDisclosure ⟨100, 1⟩ ⟨js "2026-01", js "text-hash", none, {}⟩⟩]

def delegationToBob : Op := .delegateSigner ⟨100, 1⟩ ⟨js "Bob", js "bob@example.com", none⟩

/-- The delegate is invited, enters the code, accepts and is verified. -/
def delegateVerified : List Call :=
  [⟨6, .issueInvitation (some 1) 6⟩, ⟨7, .verifyRecipientAccessCode 104 (js "4711") {}⟩,
    ⟨8, .acceptDisclosure ⟨104, 1⟩ ⟨js "2026-01", js "text-hash", none, {}⟩⟩,
    ⟨9, .startAttempt ⟨104, 1⟩ .idVerification⟩, ⟨10, .recordVendorSession 106 (js "vs_1") 1 {}⟩,
    ⟨11, .settleAttempt 106 (.verified none none)⟩]

theorem acts_of_view {time : Nat}
    (h : (getSignerDocumentView (u.at time) ctx none).isOk = true) : Acts deps (u.at time) ctx := by
  cases hview : getSignerDocumentView (u.at time) ctx none with
  | error e => simp [hview, Except.isOk, Except.toBool] at h
  | ok v => exact .view hview

theorem step_of_run_one {call : Call} (h : Run (engineStep deps) s [call] t) :
    engineStep deps s call t := by
  cases h with
  | cons hstep hrest =>
    cases hrest
    exact hstep

theorem delegate_cleared_verified :
    ∃ t d u, Run (engineStep plainDeps) checkedSigner beforeDelegation t ∧
      engineStep plainDeps t ⟨5, delegationToBob⟩ d ∧ CleanSlot t 1 5 ∧
      Run (engineStep plainDeps) d delegateVerified u ∧ ClearedAfter d u 1 := by
  obtain ⟨t, hrun, ht⟩ := engineRun_of_exec plainDeps checkedSigner beforeDelegation
    (fun t => t.attempts.isEmpty && t.acceptances.all (·.acceptedAt < 5) &&
      (exec (engineNext plainDeps) t [⟨5, delegationToBob⟩]).any fun d =>
        (exec (engineNext plainDeps) d delegateVerified).any fun u =>
          (getSignerDocumentView (u.at 12) ⟨104, 1⟩ none).isOk) rfl
  simp only [Bool.and_eq_true, List.isEmpty_iff, all_eq_true, decide_eq_true_eq] at ht
  obtain ⟨⟨hnone, hbefore⟩, hnext⟩ := ht
  obtain ⟨d, hone, hd⟩ := engineRun_of_exec _ _ _ _ hnext
  obtain ⟨u, hrun', hu⟩ := engineRun_of_exec _ _ _ _ hd
  have hclean : CleanSlot t 1 5 :=
    ⟨by simp [hnone], fun a ha _ => hbefore a ha⟩
  have hcleared := delegate_cleared checkedSigner_initial hrun (step_of_run_one hone) hclean hrun'
    (by rfl) (acts_of_view hu)
  exact ⟨t, d, u, hrun, step_of_run_one hone, hclean, hrun', hcleared⟩

/-- The original recipient is verified and delegates; the delegate reads the
documents without a check of their own. -/
theorem delegate_passes_unverified :
    ¬ ∀ (deps : Deps) (s t d u : State) (calls calls' : List Call) (time time' : Nat)
        (ctx₀ ctx : SessionContext) (input : DelegateInput), Initial s →
        Run (engineStep deps) s calls t →
        engineStep deps t ⟨time, .delegateSigner ctx₀ input⟩ d →
        Run (engineStep deps) d calls' u → ctx.signerId = ctx₀.signerId →
        Acts deps (u.at time') ctx → ClearedAfter d u ctx₀.signerId := by
  intro hclaim
  obtain ⟨t, hrun, ht⟩ := engineRun_of_exec plainDeps checkedSigner
    [sendNow checkedSigner 0, ⟨1, .verifyRecipientAccessCode 100 (js "4711") {}⟩,
      ⟨2, .startAttempt ⟨100, 1⟩ .idVerification⟩, ⟨3, .recordVendorSession 101 (js "vs_1") 1 {}⟩,
      ⟨4, .settleAttempt 101 (.verified none none)⟩]
    (fun t => (exec (engineNext plainDeps) t [⟨5, delegationToBob⟩]).any fun d =>
      (exec (engineNext plainDeps) d
        [⟨6, .issueInvitation (some 1) 6⟩, ⟨7, .verifyRecipientAccessCode 104 (js "4711") {}⟩,
          ⟨8, .acceptDisclosure ⟨104, 1⟩ ⟨js "2026-01", js "text-hash", none, {}⟩⟩]).any fun u =>
        (getSignerDocumentView (u.at 9) ⟨104, 1⟩ none).isOk &&
          u.signers.any (fun r => r.id == 1 &&
            r.identityVerificationMethod == some .idVerification) &&
          u.attempts.all fun a => d.attempts.any fun b => b.id == a.id) rfl
  obtain ⟨d, hone, hd⟩ := engineRun_of_exec _ _ _ _ ht
  obtain ⟨u, hrun', hu⟩ := engineRun_of_exec _ _ _ _ hd
  simp only [Bool.and_eq_true, any_eq_true, all_eq_true, beq_iff_eq] at hu
  obtain ⟨⟨hview, r, hr, hid, hmethod⟩, hold⟩ := hu
  have hcleared := hclaim plainDeps checkedSigner t d u _ _ 5 9 ⟨100, 1⟩ ⟨104, 1⟩ _
    checkedSigner_initial hrun (step_of_run_one hone) hrun' rfl (acts_of_view hview)
  obtain ⟨a, ha, -, -, -, -, hnew⟩ := hcleared.verified r hr hid _ hmethod
  obtain ⟨b, hb, hba⟩ := hold a ha
  exact hnew b hb hba

end AramoPlatform.Sign
