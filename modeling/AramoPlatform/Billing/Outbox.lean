import AramoPlatform.Billing.Exclusive
import AramoPlatform.Billing.QueueEffects

/-!
# The outbox loses and repeats nothing

Over any order of enqueues, claims, provider calls, outcomes, retries and
confirmations: a step of a request has one command, a command follows its
table to a confirmation that the provider's state shows, an outcome belongs to
the latest claim, and no part of a command is executed twice.
-/

namespace AramoPlatform.Billing

open Js Lib Subscription List

/-! ## The key of a coupon is no key of a command -/

theorem isStepKey_no_dash {step : JsString} (h : isStepKey step = true) :
    (45 : UInt16) ∉ step ∧ step ≠ [] := by
  cases step with
  | nil => cases h
  | cons u rest =>
    simp only [isStepKey, Bool.and_eq_true, all_eq_true, decide_eq_true_eq] at h
    refine ⟨?_, cons_ne_nil _ _⟩
    intro hmem
    rcases mem_cons.mp hmem with hu | hmem
    · have hletter := h.1.1
      rw [← hu] at hletter
      exact absurd hletter (by decide)
    · exact absurd (h.2 45 hmem) (by decide)

/-- The prefix of a key, before the id. -/
def keyPrefix : CommandOrigin → JsString
  | .changeRequest _ => js "aramo-ccp-"
  | .selfServiceRequest _ => js "aramo-ccp-ss-"

def CommandOrigin.id : CommandOrigin → Uuid
  | changeRequest id | selfServiceRequest id => id

theorem idempotencyKey_eq (origin : CommandOrigin) (step : JsString) :
    origin.idempotencyKey step = (keyPrefix origin ++ uuidText origin.id) ++ 45 :: step := by
  have hdash : js "-" = [45] := by decide
  cases origin <;>
    simp only [CommandOrigin.idempotencyKey, billingCommandIdempotencyKey,
      selfServiceCommandIdempotencyKey, keyPrefix, CommandOrigin.id, hdash, append_assoc,
      singleton_append]

theorem cut_at_last {sep : UInt16} {a b x y : JsString} (hx : sep ∉ x) (hy : sep ∉ y)
    (h : a ++ sep :: x = b ++ sep :: y) : a = b ∧ x = y := by
  rcases append_eq_append_iff.mp h with ⟨c, hb, hc⟩ | ⟨c, ha, hc⟩
  · cases c with
    | nil =>
      rw [nil_append] at hc
      exact ⟨by rw [hb, append_nil], (List.cons.inj hc).2⟩
    | cons u c =>
      rw [cons_append] at hc
      have hmem : sep ∈ x := by
        rw [(List.cons.inj hc).2]
        exact mem_append_right _ mem_cons_self
      exact absurd hmem hx
  · cases c with
    | nil =>
      rw [nil_append] at hc
      exact ⟨by rw [ha, append_nil], (List.cons.inj hc).2.symm⟩
    | cons u c =>
      rw [cons_append] at hc
      have hmem : sep ∈ y := by
        rw [(List.cons.inj hc).2]
        exact mem_append_right _ mem_cons_self
      exact absurd hmem hy

/-- The ids of the two tables stand at the same place in a key, so a step cannot fill the
difference between the two prefixes. -/
theorem prefix_uuid_ne (a b : CommandOrigin) {step : JsString} (hstep : step ≠ []) :
    (keyPrefix a ++ uuidText a.id) ++ 45 :: step ≠ keyPrefix b ++ uuidText b.id := by
  intro heq
  have hpos := length_pos_iff.mpr hstep
  have hccp : (js "aramo-ccp-").length = 10 := by decide
  have hss : (js "aramo-ccp-ss-").length = 13 := by decide
  have hlength := congrArg List.length heq
  simp only [length_append, length_cons, uuidText_length] at hlength
  cases a with
  | changeRequest x =>
    cases b with
    | changeRequest y => simp only [keyPrefix, hccp] at hlength; omega
    | selfServiceRequest y =>
      -- the first unit after the common prefix: a digit of an id against the letter `s`
      obtain ⟨u, rest, hu, hne⟩ := uuidText_head x
      have hsplit : js "aramo-ccp-ss-" = js "aramo-ccp-" ++ [115, 115, 45] := by decide
      simp only [keyPrefix, CommandOrigin.id, hu, hsplit, append_assoc] at heq
      have htail := append_cancel_left heq
      exact hne (List.cons.inj htail).1
  | selfServiceRequest x =>
    cases b with
    | changeRequest y => simp only [keyPrefix, hccp, hss] at hlength; omega
    | selfServiceRequest y => simp only [keyPrefix, hss] at hlength; omega

theorem couponKey_ne (a b : CommandOrigin) {step step' : JsString} (hstep : isStepKey step = true)
    (hstep' : isStepKey step' = true) :
    a.idempotencyKey step ++ js "-coupon" ≠ b.idempotencyKey step' := by
  intro heq
  have hcoupon : js "-coupon" = 45 :: js "coupon" := by decide
  have hclean : (45 : UInt16) ∉ js "coupon" := by decide
  rw [idempotencyKey_eq, idempotencyKey_eq, hcoupon] at heq
  -- what follows the last dash is the step on one side and `coupon` on the other
  have hlast := cut_at_last hclean (isStepKey_no_dash hstep').1 heq
  exact prefix_uuid_ne a b (isStepKey_no_dash hstep).2 hlast.1

/-! ## The invariant -/

variable {deps : BillingDeps} {checkoutPorts : CheckoutPorts} {ports : OutboxPorts}
  {s t : OutboxState} {op : OutboxOp} {commands : List BillingProviderCommand}
  {p : BillingProviderCommand → Bool} {f : BillingProviderCommand → BillingProviderCommand}

/-- The unique keys of the commands, each key derived from the request and the step. -/
structure QueueWf (commands : List BillingProviderCommand) : Prop where
  ids : (commands.map (·.id)).Nodup
  keys : (commands.map (·.idempotencyKey)).Nodup
  places : (commands.map fun c => (c.origin, c.step)).Nodup
  derived : ∀ c ∈ commands,
    c.idempotencyKey = c.origin.idempotencyKey c.step ∧ isStepKey c.step = true

variable {c : BillingProviderCommand}

theorem QueueWf.append (h : QueueWf commands)
    (hderived : c.idempotencyKey = c.origin.idempotencyKey c.step ∧ isStepKey c.step = true)
    (hadmits : admitsCommand commands c = true) : QueueWf (commands ++ [c]) := by
  rw [admitsCommand_iff] at hadmits
  have hnew : ∀ {β : Type} (g : BillingProviderCommand → β), (commands.map g).Nodup →
      (∀ x ∈ commands, g x ≠ g c) → ((commands ++ [c]).map g).Nodup := by
    intro β g hnodup hne
    rw [map_append, map_singleton, ← concat_eq_append]
    refine hnodup.concat ?_
    intro hmem
    obtain ⟨x, hx, hxc⟩ := mem_map.mp hmem
    exact hne x hx hxc
  refine ⟨hnew _ h.ids ?_, hnew _ h.keys ?_, hnew _ h.places ?_, ?_⟩
  · exact fun x hx => (hadmits x hx).1
  · exact fun x hx => (hadmits x hx).2.1
  · exact fun x hx => (hadmits x hx).2.2
  · intro x hx
    rcases (mem_append.mp hx).imp_right mem_singleton.mp with hx | rfl
    · exact h.derived x hx
    · exact hderived

theorem keys_of_identity {c d : BillingProviderCommand} (h : c.identity = d.identity) :
    c.id = d.id ∧ c.idempotencyKey = d.idempotencyKey ∧ c.origin = d.origin ∧ c.step = d.step := by
  have hid : c.identity.id = d.identity.id := by rw [h]
  have hkey : c.identity.idempotencyKey = d.identity.idempotencyKey := by rw [h]
  have horigin : c.identity.origin = d.identity.origin := by rw [h]
  have hstep : c.identity.step = d.identity.step := by rw [h]
  exact ⟨hid, hkey, horigin, hstep⟩

theorem QueueWf.update (h : QueueWf commands) (hf : KeepsIdentity f) :
    QueueWf (updateWhere p f commands) := by
  have hkeys := fun c => keys_of_identity (hf.identity c)
  refine ⟨?_, ?_, ?_, ?_⟩
  · rw [map_updateWhere (·.id) fun c => (hkeys c).1]
    exact h.ids
  · rw [map_updateWhere (·.idempotencyKey) fun c => (hkeys c).2.1]
    exact h.keys
  · have hplace : ∀ c, ((f c).origin, (f c).step) = (c.origin, c.step) := by
      intro c
      rw [(hkeys c).2.2.1, (hkeys c).2.2.2]
    rw [map_updateWhere (fun c : BillingProviderCommand => (c.origin, c.step)) hplace]
    exact h.places
  · intro x hx
    rcases of_mem_updateWhere hx with ⟨hx, -⟩ | ⟨c, hc, -, rfl⟩
    · exact h.derived x hx
    · obtain ⟨-, hkey, horigin, hstep⟩ := hkeys c
      rw [hkey, horigin, hstep]
      exact h.derived c hc

/-- Every command is still there. -/
def CommandsContinue (old new : List BillingProviderCommand) : Prop :=
  ∀ c ∈ old, ∃ c' ∈ new, c'.identity = c.identity ∧ c.attempts ≤ c'.attempts

theorem CommandsContinue.update (hf : KeepsIdentity f) :
    CommandsContinue commands (updateWhere p f commands) := fun c hc =>
  exists_updateWhere hc (fun _ => ⟨rfl, Nat.le_refl _⟩) fun _ => ⟨hf.identity c, hf.attempts c⟩

/-- Claims are of commands that are there, a later claim counts more attempts, and what
is being sent is the command's own. -/
structure ClaimsWf (commands : List BillingProviderCommand) (dispatches : List Dispatch) :
    Prop where
  source : ∀ d ∈ dispatches, ∃ c ∈ commands, c.identity = d.command.identity ∧
    d.command.attempts ≤ c.attempts
  order : (dispatches.map (·.command)).Pairwise fun c d => c.id = d.id → c.attempts < d.attempts
  writes : ∀ d ∈ dispatches, ∀ w ∈ d.phase.writes, IsWriteOf d.command w

variable {dispatches : List Dispatch}

theorem ClaimsWf.continue {old new : List BillingProviderCommand}
    (h : ClaimsWf old dispatches) (hcontinue : CommandsContinue old new) :
    ClaimsWf new dispatches := by
  refine ⟨?_, h.order, h.writes⟩
  intro d hd
  obtain ⟨c, hc, hidentity, hle⟩ := h.source d hd
  obtain ⟨c', hc', hidentity', hle'⟩ := hcontinue c hc
  exact ⟨c', hc', hidentity'.trans hidentity, Nat.le_trans hle hle'⟩

theorem ClaimsWf.set {i : Nat} {d : Dispatch} {phase : DispatchPhase}
    (h : ClaimsWf commands dispatches) (hd : dispatches[i]? = some d)
    (hwrites : ∀ w ∈ phase.writes, IsWriteOf d.command w) :
    ClaimsWf commands (dispatches.set i { d with phase := phase }) := by
  have hold : ∀ e ∈ dispatches.set i { d with phase := phase },
      e = { d with phase := phase } ∨ e ∈ dispatches := fun e he =>
        (mem_or_eq_of_mem_set he).symm
  refine ⟨?_, ?_, ?_⟩
  · intro e he
    rcases hold e he with rfl | he
    · exact h.source d (mem_of_getElem? hd)
    · exact h.source e he
  · obtain ⟨hlt, rfl⟩ := List.getElem?_eq_some_iff.mp hd
    have hsame : (dispatches.set i { dispatches[i] with phase := phase }).map (·.command) =
        dispatches.map (·.command) := by
      rw [map_set]
      refine ext_getElem (by simp) ?_
      intro k hk _
      rw [getElem_set]
      split
      next heq =>
        subst heq
        simp
      · rfl
    rw [hsame]
    exact h.order
  · intro e he
    rcases hold e he with rfl | he
    · exact hwrites
    · exact h.writes e he

/-- What the provider has executed: each key once, under the keys of commands. -/
structure ExecutedWf (commands : List BillingProviderCommand) (executed : List ProviderWrite) :
    Prop where
  once : (executed.map (·.key)).Nodup
  source : ∀ w ∈ executed, ∃ c ∈ commands, IsWriteOf c w

theorem ExecutedWf.continue {old new : List BillingProviderCommand} {executed : List ProviderWrite}
    (h : ExecutedWf old executed) (hcontinue : CommandsContinue old new) :
    ExecutedWf new executed := by
  refine ⟨h.once, ?_⟩
  intro w hw
  obtain ⟨c, hc, hid, hkey⟩ := h.source w hw
  obtain ⟨c', hc', hidentity, -⟩ := hcontinue c hc
  obtain ⟨hid', hkey', -⟩ := keys_of_identity hidentity
  exact ⟨c', hc', hid.trans hid'.symm, by rw [hkey', hkey]⟩

theorem ExecutedWf.write {executed : List ProviderWrite} {executes : Bool} {w : ProviderWrite}
    (h : ExecutedWf commands executed) (hw : ∃ c ∈ commands, IsWriteOf c w) :
    ExecutedWf commands (executeWrite executed executes w) := by
  unfold executeWrite
  split
  next hnew =>
    rw [Bool.and_eq_true, all_eq_true] at hnew
    refine ⟨?_, ?_⟩
    · rw [map_append, map_singleton, ← concat_eq_append]
      refine h.once.concat ?_
      intro hmem
      obtain ⟨x, hx, hkey⟩ := mem_map.mp hmem
      have hne := hnew.2 x hx
      rw [hkey, bne_self_eq_false] at hne
      cases hne
    · intro x hx
      rcases (mem_append.mp hx).imp_right mem_singleton.mp with hx | rfl
      · exact h.source x hx
      · exact hw
  · exact h

structure OutboxInv (s : OutboxState) : Prop where
  queue : QueueWf s.commands
  claims : ClaimsWf s.commands s.dispatches
  executed : ExecutedWf s.commands s.executed
  sessions : SessionsExpired s.lifecycle

theorem claimed_keeps (time : Nat) : KeepsIdentity (claimed time) :=
  ⟨fun _ => rfl, fun c => Nat.le_succ c.attempts⟩

theorem rearmed_keeps (time : Nat) : KeepsIdentity (rearmed time) :=
  ⟨fun _ => rfl, fun _ => Nat.le_refl _⟩

theorem outcomeOf_keeps (c : BillingProviderCommand) (time : Nat)
    (result : Except AttemptError Accepted) : KeepsIdentity (outcomeOf c time result).2 := by
  unfold outcomeOf
  cases result with
  | ok done => exact ⟨fun _ => rfl, fun _ => Nat.le_refl _⟩
  | error e =>
    dsimp only
    split <;> exact ⟨fun _ => rfl, fun _ => Nat.le_refl _⟩

theorem ClaimsWf.claim {time : Nat}
    (hqueue : QueueWf commands) (h : ClaimsWf commands dispatches) (hc : c ∈ commands) :
    ClaimsWf (updateWhere (·.id == c.id) (claimed time) commands)
      (dispatches ++ [⟨claimed time c, time, .claimed⟩]) := by
  have hcontinue : CommandsContinue commands
      (updateWhere (·.id == c.id) (claimed time) commands) := .update (claimed_keeps time)
  have hkept := h.continue hcontinue
  refine ⟨?_, ?_, ?_⟩
  · intro d hd
    rcases (mem_append.mp hd).imp_right mem_singleton.mp with hd | rfl
    · exact hkept.source d hd
    · exact ⟨claimed time c, mem_updateWhere_of_pos hc (beq_self_eq_true c.id), rfl, Nat.le_refl _⟩
  · rw [map_append, pairwise_append]
    refine ⟨h.order, pairwise_singleton _ _, ?_⟩
    intro x hx y hy hid
    obtain rfl := mem_singleton.mp hy
    obtain ⟨d, hd, rfl⟩ := mem_map.mp hx
    obtain ⟨c', hc', hidentity, hle⟩ := h.source d hd
    -- the row of the earlier claim is the row that is claimed now
    have hsame : c' = c :=
      inj_on_of_nodup_map hqueue.ids hc' hc ((keys_of_identity hidentity).1.trans hid)
    rw [hsame] at hle
    exact Nat.lt_succ_of_le hle
  · intro d hd
    rcases (mem_append.mp hd).imp_right mem_singleton.mp with hd | rfl
    · exact h.writes d hd
    · intro w hw
      cases hw

theorem OutboxMove.table (hqueue : QueueWf s.commands) (h : OutboxMove s op t) :
    QueueWf t.commands ∧ CommandsContinue s.commands t.commands := by
  have hrefl : CommandsContinue s.commands s.commands := fun c hc => ⟨c, hc, rfl, Nat.le_refl _⟩
  have hupdate : ∀ {p f}, KeepsIdentity f → t.commands = updateWhere p f s.commands →
      QueueWf t.commands ∧ CommandsContinue s.commands t.commands := by
    intro p f hf heq
    rw [heq]
    exact ⟨hqueue.update hf, .update hf⟩
  cases h with
  | quiet commands | moved commands | sent commands => rw [commands]; exact ⟨hqueue, hrefl⟩
  | enqueued _ derived admits commands _ _ =>
    rw [commands]
    refine ⟨hqueue.append derived admits, ?_⟩
    intro c hc
    exact ⟨c, mem_append_left _ hc, rfl, Nat.le_refl _⟩
  | claimed _ _ _ commands _ _ => exact hupdate (claimed_keeps _) commands
  | recorded _ _ _ _ commands _ _ => exact hupdate (outcomeOf_keeps _ _ _) commands
  | rearmed _ commands _ _ => exact hupdate (rearmed_keeps _) commands
  | confirmed keeps _ _ commands _ _ => exact hupdate keeps commands

theorem OutboxMove.inv (hinv : OutboxInv s) (hsessions : SessionsExpired t.lifecycle)
    (h : OutboxMove s op t) : OutboxInv t := by
  obtain ⟨hqueue, hcontinue⟩ := h.table hinv.queue
  have hclaims := hinv.claims.continue hcontinue
  have hexecuted := hinv.executed.continue hcontinue
  refine ⟨hqueue, ?_, ?_, hsessions⟩
  · cases h with
    | quiet _ dispatches | enqueued _ _ _ _ dispatches | rearmed _ _ dispatches
    | confirmed _ _ _ _ dispatches => rw [dispatches]; exact hclaims
    | claimed _ mem _ commands dispatches _ =>
      rw [commands, dispatches]
      exact hinv.claims.claim hinv.queue mem
    | moved _ found writes dispatches _ => rw [dispatches]; exact hclaims.set found writes
    | @sent _ _ i d _ _ _ _ found _ writes dispatches _ =>
      rw [dispatches]
      refine hclaims.set found ?_
      intro w hw
      exact hinv.claims.writes d (mem_of_getElem? found) w (writes hw)
    | recorded _ _ dispatch _ _ dispatches _ =>
      rw [dispatches]
      refine hclaims.set dispatch ?_
      intro w hw
      cases hw
  · cases h with
    | quiet _ _ executed | enqueued _ _ _ _ _ executed | claimed _ _ _ _ _ executed
    | moved _ _ _ _ executed | recorded _ _ _ _ _ _ executed | rearmed _ _ _ executed
    | confirmed _ _ _ _ _ executed => rw [executed]; exact hexecuted
    | @sent _ _ i d _ w _ commands found first _ _ executed =>
      rw [executed]
      refine hexecuted.write ?_
      -- the write is of the claimed row, whose command is still there
      have hd := mem_of_getElem? found
      obtain ⟨hid, hkey⟩ := hinv.claims.writes d hd w first
      obtain ⟨c, hc, hidentity, -⟩ := hclaims.source d hd
      obtain ⟨hid', hkey', -⟩ := keys_of_identity hidentity
      exact ⟨c, hc, hid.trans hid'.symm, by rw [hkey', hkey]⟩

/-! ## Sessions in flight -/

theorem sessionIntentOf_expired {db : BillingDb} {session : CheckoutSessionState}
    {productKey : ProductKey} {intent : CheckoutIntent}
    (h : sessionIntentOf db session productKey = .ok intent) : session.status = js "expired" := by
  simp only [sessionIntentOf, bind_eq_ok, require_eq_ok] at h
  obtain ⟨-, -, -, -, -, -, -, hstatus, -⟩ := h
  exact eq_of_beq hstatus

theorem lifecycleNext_sessions {a b : LifecycleState} {op : LifecycleOp} (ha : SessionsExpired a)
    (h : lifecycleNext deps checkoutPorts a op = some b) : SessionsExpired b := by
  have hsame : b.sessions = a.sessions → SessionsExpired b := by
    intro heq r hr
    rw [heq] at hr
    exact ha r hr
  cases op with
  | readSession session productKey confirmation time =>
    simp only [lifecycleNext] at h
    split at h
    next intent hintent =>
      obtain rfl := Option.some.inj h
      intro r hr
      rcases (mem_append.mp hr).imp_right mem_singleton.mp with hr | rfl
      · exact ha r hr
      · exact sessionIntentOf_expired hintent
    · cases h
  | expireSession call =>
    simp only [lifecycleNext, Option.bind_eq_bind, Option.bind_eq_some_iff] at h
    obtain ⟨c, -, h⟩ := h
    obtain rfl := Option.some.inj h
    intro r hr
    exact ha r (mem_of_mem_eraseIdx hr)
  | _ =>
    refine hsame ?_
    simp only [lifecycleNext, Option.bind_eq_bind, Option.bind_eq_some_iff] at h
    grind

theorem reconcileOne_sessions {r : Reconcile} {target : SyncTarget} {answer : SyncAnswer}
    (hs : SessionsExpired s.lifecycle) :
    SessionsExpired (reconcileOne deps checkoutPorts ports s r target answer).lifecycle := by
  unfold reconcileOne
  split
  · split
    next u hread => exact lifecycleNext_sessions hs hread
    · exact hs
  · split
    next u hread => exact lifecycleNext_sessions hs hread
    · exact hs
  · unfold OutboxState.readAdjustment
    split <;> exact hs
  · exact hs

theorem outboxStep_sessions (hs : SessionsExpired s.lifecycle)
    (h : OutboxStep deps checkoutPorts ports s op t) : SessionsExpired t.lifecycle := by
  have hsame : t.lifecycle.sessions = s.lifecycle.sessions → SessionsExpired t.lifecycle := by
    intro heq r hr
    rw [heq] at hr
    exact hs r hr
  cases op with
  | lifecycle op =>
    simp only [OutboxStep, outboxNext] at h
    split at h
    · simp only [Option.bind_eq_bind, Option.bind_eq_some_iff] at h
      obtain ⟨u, hu, h⟩ := h
      obtain rfl := Option.some.inj h
      exact lifecycleNext_sessions hs hu
    · cases h
  | reconcileNext reconcile answer =>
    obtain ⟨r, -, h⟩ := Option.bind_eq_some_iff.mp h
    split at h
    · cases h
    · obtain rfl := Option.some.inj h
      exact reconcileOne_sessions hs
  | _ =>
    -- the other steps do not touch the sessions
    refine hsame ?_
    simp only [OutboxStep, outboxNext, Option.bind_eq_bind, Option.bind_eq_some_iff] at h
    grind [OutboxState.setPhase, OutboxState.setCommands, OutboxState.readAdjustment,
      Option.bind_eq_some_iff]

/-! ## Row by row -/

theorem OutboxMove.row (hids : (s.commands.map (·.id)).Nodup)
    (h : OutboxMove s op t) (hc : c ∈ s.commands) :
    ∃ c' ∈ t.commands, c'.identity = c.identity ∧ (c' = c ∨ CommandMove s op c c') := by
  have hsame : t.commands = s.commands →
      ∃ c' ∈ t.commands, c'.identity = c.identity ∧ (c' = c ∨ CommandMove s op c c') := by
    intro heq
    rw [heq]
    exact ⟨c, hc, rfl, .inl rfl⟩
  have hupdate : ∀ {p f}, KeepsIdentity f → t.commands = updateWhere p f s.commands →
      (p c = true → CommandMove s op c (f c)) →
        ∃ c' ∈ t.commands, c'.identity = c.identity ∧ (c' = c ∨ CommandMove s op c c') := by
    intro p f hf heq hmove
    rw [heq]
    exact exists_updateWhere hc (fun _ => ⟨rfl, .inl rfl⟩) fun hp =>
      ⟨hf.identity c, .inr (hmove hp)⟩
  cases h with
  | quiet commands | moved commands | sent commands => exact hsame commands
  | enqueued _ _ _ commands _ _ =>
    rw [commands]
    exact ⟨c, mem_append_left _ hc, rfl, .inl rfl⟩
  | claimed found mem due commands _ _ =>
    refine hupdate (claimed_keeps _) commands ?_
    intro hp
    obtain rfl := inj_on_of_nodup_map hids hc mem (eq_of_beq hp)
    exact .claimed found due
  | recorded found running dispatch phase commands _ _ =>
    exact hupdate (outcomeOf_keeps _ _ _) commands fun hfenced =>
      .recorded found running dispatch phase hfenced
  | rearmed failed commands _ _ =>
    exact hupdate (rearmed_keeps _) commands fun hp => .rearmed (failed c hc hp)
  | confirmed keeps state shown commands _ _ =>
    exact hupdate keeps commands fun hp =>
      .confirmed (shown c hc hp).1 (shown c hc hp).2 (state c)

/-- The outcome is that of the latest claim of the command: no later claim exists. -/
def LatestOutcome (s : OutboxState) (op : OutboxOp) (c c' : BillingProviderCommand) : Prop :=
  ∃ (batch i : Nat) (d : Dispatch) (result : Except AttemptError Accepted),
    op = .record batch ∧ s.dispatches[i]? = some d ∧ d.command.id = c.id ∧
      d.phase = .performed result ∧ c' = (outcomeOf d.command d.time result).2 c ∧
        ∀ (j : Nat) (e : Dispatch), s.dispatches[j]? = some e → e.command.id = c.id → j ≤ i

def isAttemptOutcome : BillingCommandState → Bool
  | .pendingProvider | .retryWait | .failed => true
  | .pending | .dispatching | .confirmed => false

/-- What one step may do. -/
structure SafeStep (s : OutboxState) (op : OutboxOp) (t : OutboxState) : Prop where
  /-- No command is lost, and its state moves along an edge. -/
  kept : ∀ c ∈ s.commands, ∃ c' ∈ t.commands, c'.identity = c.identity ∧
    (c' = c ∨ canTransitionBillingCommand c.state c'.state = true)
  fresh : ∀ c' ∈ t.commands, (∀ c ∈ s.commands, c.id ≠ c'.id) →
    c'.state = .pending ∧ c'.attempts = 0
  final : ∀ c ∈ s.commands, c.state = .confirmed → c ∈ t.commands
  confirmed : ∀ c ∈ s.commands, ∀ c' ∈ t.commands, c'.id = c.id → c.state ≠ .confirmed →
    c'.state = .confirmed → ShowsEffect s op c
  outcome : ∀ c ∈ s.commands, ∀ c' ∈ t.commands, c'.id = c.id → c' ≠ c →
    isAttemptOutcome c'.state = true → LatestOutcome s op c c'

/-- What holds of the commands and of the provider's executions at any time. -/
structure SafeState (s : OutboxState) : Prop where
  oneCommand : (s.commands.map fun c => (c.origin, c.step)).Nodup
  ids : (s.commands.map (·.id)).Nodup
  /-- No two writes of commands share a key, so none is taken for another. -/
  keys : ∀ c ∈ s.commands, ∀ c' ∈ s.commands, ∀ part part',
    writeKey c.idempotencyKey part = writeKey c'.idempotencyKey part' → c = c' ∧ part = part'
  executed : ∀ w ∈ s.executed, ∃ c ∈ s.commands, IsWriteOf c w
  once : ∀ c ∈ s.commands, ∀ part,
    s.executed.countP (fun w => w.commandId == c.id && w.part == part) ≤ 1

theorem OutboxInv.safe (h : OutboxInv s) : SafeState s where
  oneCommand := h.queue.places
  ids := h.queue.ids
  keys := by
    intro c hc c' hc' part part' heq
    obtain ⟨hkey, hstep⟩ := h.queue.derived c hc
    obtain ⟨hkey', hstep'⟩ := h.queue.derived c' hc'
    have hsame : c.idempotencyKey = c'.idempotencyKey → c = c' := fun hk =>
      inj_on_of_nodup_map h.queue.keys hc hc' hk
    cases part with
    | effect =>
      cases part' with
      | effect => exact ⟨hsame heq, rfl⟩
      | coupon =>
        rw [hkey, hkey'] at heq
        exact absurd heq.symm (couponKey_ne _ _ hstep' hstep)
    | coupon =>
      cases part' with
      | effect =>
        rw [hkey, hkey'] at heq
        exact absurd heq (couponKey_ne _ _ hstep hstep')
      | coupon => exact ⟨hsame (append_cancel_right heq), rfl⟩
  executed := h.executed.source
  once := by
    intro c hc part
    -- all writes of this part have one key, and the provider has executed a key once
    have hkeys : ∀ w ∈ s.executed, (w.commandId == c.id && w.part == part) = true →
        w.key = writeKey c.idempotencyKey part := by
      intro w hw hp
      rw [Bool.and_eq_true, beq_iff_eq, beq_iff_eq] at hp
      obtain ⟨c', hc', hid, hkey⟩ := h.executed.source w hw
      obtain rfl := inj_on_of_nodup_map h.queue.ids hc' hc (hid.symm.trans hp.1)
      rw [hkey, hp.2]
    have hcount := nodup_iff_count_le_one.mp h.executed.once
      (writeKey c.idempotencyKey part)
    refine Nat.le_trans ?_ hcount
    rw [count_eq_countP, countP_map]
    refine countP_mono_left fun w hw hp => ?_
    exact beq_iff_eq.mpr (hkeys w hw hp)

theorem OutboxMove.fresh_pending {c' : BillingProviderCommand} (h : OutboxMove s op t)
    (hc' : c' ∈ t.commands) (hnew : ∀ c ∈ s.commands, c.id ≠ c'.id) :
    c'.state = .pending ∧ c'.attempts = 0 := by
  have hsame : t.commands = s.commands → c'.state = .pending ∧ c'.attempts = 0 := by
    intro heq
    rw [heq] at hc'
    exact absurd rfl (hnew c' hc')
  have hupdate : ∀ {p f}, KeepsIdentity f → t.commands = updateWhere p f s.commands →
      c'.state = .pending ∧ c'.attempts = 0 := by
    intro p f hf heq
    rw [heq] at hc'
    rcases of_mem_updateWhere hc' with ⟨hc', -⟩ | ⟨c, hc, -, rfl⟩
    · exact absurd rfl (hnew c' hc')
    · exact absurd (keys_of_identity (hf.identity c)).1.symm (hnew c hc)
  cases h with
  | quiet commands | moved commands | sent commands => exact hsame commands
  | enqueued fresh _ _ commands _ _ =>
    rw [commands] at hc'
    rcases mem_append.mp hc' with hc' | hc'
    · exact absurd rfl (hnew c' hc')
    · obtain rfl := mem_singleton.mp hc'
      exact fresh
  | claimed _ _ _ commands _ _ => exact hupdate (claimed_keeps _) commands
  | recorded _ _ _ _ commands _ _ => exact hupdate (outcomeOf_keeps _ _ _) commands
  | rearmed _ commands _ _ => exact hupdate (rearmed_keeps _) commands
  | confirmed keeps _ _ commands _ _ => exact hupdate keeps commands

theorem ClaimsWf.attempts_lt {i j : Nat} {d e : Dispatch}
    (h : ClaimsWf commands dispatches) (hd : dispatches[i]? = some d)
    (he : dispatches[j]? = some e) (hlt : i < j) (hid : d.command.id = e.command.id) :
    d.command.attempts < e.command.attempts := by
  obtain ⟨hi, rfl⟩ := List.getElem?_eq_some_iff.mp hd
  obtain ⟨hj, rfl⟩ := List.getElem?_eq_some_iff.mp he
  have hpair := pairwise_iff_getElem.mp h.order i j (by simpa using hi) (by simpa using hj) hlt
  simp only [getElem_map] at hpair
  exact hpair hid

theorem OutboxInv.safeStep (h : OutboxInv s) (hmove : OutboxMove s op t) : SafeStep s op t := by
  obtain ⟨hqueue, -⟩ := hmove.table h.queue
  -- the row that a command becomes is determined by its id
  have hrow : ∀ c ∈ s.commands, ∀ c' ∈ t.commands, c'.id = c.id →
      c' = c ∨ CommandMove s op c c' := by
    intro c hc c' hc' hid
    obtain ⟨x, hx, hidentity, hx'⟩ := hmove.row h.queue.ids hc
    obtain rfl := inj_on_of_nodup_map hqueue.ids hc' hx
      (hid.trans (keys_of_identity hidentity).1.symm)
    exact hx'
  refine ⟨?_, ?_, ?_, ?_, ?_⟩
  · intro c hc
    obtain ⟨c', hc', hidentity, hsame | hone⟩ := hmove.row h.queue.ids hc
    · exact ⟨c', hc', hidentity, .inl hsame⟩
    · exact ⟨c', hc', hidentity, .inr hone.edge⟩
  · intro c' hc' hnew
    exact hmove.fresh_pending hc' hnew
  · intro c hc hstate
    obtain ⟨c', hc', -, rfl | hone⟩ := hmove.row h.queue.ids hc
    · exact hc'
    · exact absurd hstate hone.unconfirmed
  · intro c hc c' hc' hid hopen hstate
    rcases hrow c hc c' hc' hid with rfl | hone
    · exact absurd hstate hopen
    · exact hone.shown hstate
  · intro c hc c' hc' hid hne houtcome
    rcases hrow c hc c' hc' hid with rfl | hone
    · exact absurd rfl hne
    · cases hone with
      | claimed | rearmed => cases houtcome
      | @recorded batch i b d result _ _ _ dispatch phase fenced =>
        simp only [isFenced, Bool.and_eq_true, beq_iff_eq] at fenced
        refine ⟨batch, i, d, result, rfl, dispatch, fenced.1.1.symm, phase, rfl, ?_⟩
        intro j e he hide
        by_contra hlt
        have hlater := h.claims.attempts_lt dispatch he (Nat.not_le.mp hlt)
          (fenced.1.1.symm.trans hide.symm)
        obtain ⟨x, hx, hidentity, hle⟩ := h.claims.source e (mem_of_getElem? he)
        -- the row of the later claim is this row, whose attempts are those of the fence
        obtain rfl := inj_on_of_nodup_map h.queue.ids hx hc
          ((keys_of_identity hidentity).1.trans hide)
        omega
      | confirmed _ _ state =>
        rw [state] at houtcome
        cases houtcome

/-- A start: nothing in the queue and no call in flight. -/
structure OutboxStart (s : OutboxState) : Prop where
  commands : s.commands = []
  dispatches : s.dispatches = []
  executed : s.executed = []
  sessions : s.lifecycle.sessions = []

theorem OutboxStart.inv (h : OutboxStart s) : OutboxInv s := by
  refine ⟨?_, ?_, ?_, ?_⟩
  · rw [h.commands]
    exact ⟨nodup_nil, nodup_nil, nodup_nil, fun c hc => absurd hc not_mem_nil⟩
  · rw [h.dispatches]
    exact ⟨fun d hd => absurd hd not_mem_nil, List.Pairwise.nil,
      fun d hd => absurd hd not_mem_nil⟩
  · rw [h.executed]
    exact ⟨nodup_nil, fun w hw => absurd hw not_mem_nil⟩
  · intro r hr
    rw [h.sessions] at hr
    cases hr

theorem outboxStep_inv (h : OutboxInv s) (hstep : OutboxStep deps checkoutPorts ports s op t) :
    OutboxInv t :=
  (outboxStep_move h.sessions h.queue.ids hstep).inv h (outboxStep_sessions h.sessions hstep)

/-- **The outbox.** In every state of every run, and for every next step. -/
theorem outbox_loses_and_repeats_nothing {ops : List OutboxOp} (hstart : OutboxStart s)
    (hrun : Run (OutboxStep deps checkoutPorts ports) s ops t) :
    SafeState t ∧ ∀ op u, OutboxStep deps checkoutPorts ports t op u → SafeStep t op u := by
  have hinv : OutboxInv t :=
    hrun.invariant (I := OutboxInv) (fun _ _ _ hs hstep => outboxStep_inv hs hstep) hstart.inv
  refine ⟨hinv.safe, ?_⟩
  intro op u hstep
  exact hinv.safeStep (outboxStep_move hinv.sessions hinv.queue.ids hstep)

/-- A paid subscription with an approved conversion that ends it. -/
def paidState : OutboxState where
  lifecycle :=
    { db :=
        { freeWithCheckout .stripe with
          subscriptions := [{ freeRow with
            source := .selfService, billingProvider := some .stripe
            billingSubscriptionRef := some (js "sub_1") }]
          requests := [⟨20, 7, js "sign", .approved, .toSelfService, js "owner", none⟩] }
      provider := [activeState .stripe (js "price_pro")]
      events := [], deliveries := [], calls := [], checkouts := [], sessions := [] }
  requests := []
  selfService := []
  adjustments := []
  batches := []
  dispatches := []
  executed := []
  syncs := []
  reconciles := []

def stripePorts : OutboxPorts := ⟨.stripe, some ⟨true, false⟩, none⟩

/-- The answer to the first call is lost, the second call has the same key, and the state
of the ended subscription confirms the command. -/
def cancelOps : List OutboxOp :=
  [.enqueue ⟨.subscriptionCancel, .changeRequest 20, js "end_self_service", 7, js "sign",
      js "sub_1", some .immediate, none, js "owner", 50⟩,
    .startBatch 100 25, .claim 0 [], .readSubscription 0,
    .send 0 true (.failed true false (js "network: timeout")), .record 0,
    .startBatch 70000 25, .claim 1 [], .readSubscription 1, .send 1 false (.ok none), .record 1,
    .lifecycle (.providerMoves
      { activeState .stripe (js "price_pro") with providerStatus := js "canceled" }),
    .lifecycle (.retrieve .stripe (js "sub_1") (js "sign") refetchConfirmation 80000),
    .lifecycle (.link 0 false), .lifecycle (.apply 0 80000)]

theorem outbox_cancel_confirmed : ∃ t,
    Run (OutboxStep boundDeps openPorts stripePorts) paidState cancelOps t ∧
      (t.commands.map fun c => (c.state, c.attempts)) = [(.confirmed, 2)] ∧
        t.executed.length = 1 ∧ SafeState t := by
  obtain ⟨t, hrun, hready⟩ := outboxRun_of_exec boundDeps openPorts stripePorts paidState cancelOps
    (fun t => (t.commands.map fun c => (c.state, c.attempts)) == [(.confirmed, 2)] &&
      t.executed.length == 1) (by decide +kernel)
  rw [Bool.and_eq_true, beq_iff_eq, beq_iff_eq] at hready
  exact ⟨t, hrun, hready.1, hready.2,
    (outbox_loses_and_repeats_nothing ⟨rfl, rfl, rfl, rfl⟩ hrun).1⟩

end AramoPlatform.Billing
