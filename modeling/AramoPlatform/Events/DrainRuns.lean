import AramoPlatform.Events.Drain

/-!
# The drain over runs

The attempts of a row are counted when it is claimed and judged when the answer
is written back. A row that is claimed for the last time is claimable no more,
so it depends on the worker that holds it: on that worker finishing before the
lease ends, on the answer naming the row, and on no earlier worker releasing it.
-/

namespace AramoPlatform.Events

open Js Lib List

variable (config : LeaseSafeOutboxDrainConfig) (defaults : EnvelopeDefaults)

/-- A publish attempt of the row has failed with its budget used up. -/
def FailedAtBudget (calls : List PublishCall) (r : OutboxRow) : Prop :=
  ∃ call ∈ calls, r.id ∈ call.result.failedEventIds ∧
    ∃ b ∈ call.sent, b.id = r.id ∧ config.maxAttempts ≤ b.publishAttempts

def Unmappable (r : OutboxRow) : Prop := mappable defaults r.toLeasedOutboxRow = false

def Confirmed (calls : List PublishCall) (r : OutboxRow) : Prop :=
  ∃ call ∈ calls, r.id ∈ call.result.publishedEventIds

/-- No event is stranded, and the two ends of a row are earned. -/
structure Unstranded (s : DrainState) : Prop where
  kept : ∀ r ∈ s.rows, r.publishedAt.isSome = true ∨ r.quarantinedAt.isSome = true ∨
    r.leaseFree s.now = false ∨ r.claimable config.maxAttempts s.now = true
  published : ∀ r ∈ s.rows, r.publishedAt.isSome = true → Confirmed s.calls r
  quarantined : ∀ r ∈ s.rows, r.quarantinedAt.isSome = true →
    Unmappable defaults r ∨ FailedAtBudget config s.calls r

/-! ## The last claim of a row -/

/-- The worker holds the row, and has claimed it for the last time. -/
def HoldsLast (phase : DrainPhase) (r : OutboxRow) : Prop :=
  r.isOpen = true ∧ ∃ b ∈ phase.batch, b.id = r.id ∧ config.maxAttempts ≤ b.publishAttempts

/-- What a step must not do to a row that is claimed for the last time: let its
lease end while a worker holds it, drop it with its worker, leave it out of the
answer, or release it for an earlier worker. An id that is failed though it was
not of the batch counts as over the budget. -/
def SparesLastClaims (s : DrainState) : DrainAction → Prop
  | .tick ms => ∀ w, ∀ r ∈ s.rows, HoldsLast config (s.workers w) r →
      r.leaseFree (s.now + ms) = false
  | .crash w | .publish w none => ∀ r ∈ s.rows, ¬ HoldsLast config (s.workers w) r
  | .publish w (some result) => ∀ r ∈ s.rows, HoldsLast config (s.workers w) r →
      r.id ∈ result.publishedEventIds ∨ r.id ∈ result.failedEventIds
  | .quarantine w => ∀ result, (s.workers w).result = some result → ∀ r ∈ s.rows,
      r.isOpen = true → r.id ∈ result.failedEventIds → (∀ b ∈ (s.workers w).batch, b.id ≠ r.id) →
        Unmappable defaults r ∨ FailedAtBudget config s.calls r
  | .release w => ∀ result, (s.workers w).result = some result → ∀ r ∈ s.rows, r.isOpen = true →
      r.id ∈ result.failedEventIds →
      (∃ b ∈ (s.workers w).batch, b.id = r.id ∧ b.publishAttempts < config.maxAttempts) →
        r.publishAttempts < config.maxAttempts
  | _ => True

/-! ## The invariant -/

/-- The worker holds the row as it is, and will end its attempt. -/
def Owes (phase : DrainPhase) (r : OutboxRow) : Prop :=
  (byId phase.batch r.id).map (·.publishAttempts) = some r.publishAttempts ∧
    match phase with
    | .idle _ | .judged _ _ _ _ => False
    | .claimed _ | .mapped _ _ => True
    | .answered _ _ result =>
      r.id ∈ result.publishedEventIds ∨ r.id ∈ result.failedEventIds
    | .marked _ _ result _ => r.id ∈ result.failedEventIds

/-- An open row at its budget is under its lease and owed by a worker. -/
structure DrainInv (s : DrainState) : Prop where
  keys : (s.rows.map (·.id)).Nodup
  held : ∀ w, ∀ b ∈ (s.workers w).batch,
    b.toCanonicalOutboxRow ∈ s.rows.map (·.toCanonicalOutboxRow)
  logged : ∀ w result, (s.workers w).result = some result →
    ⟨(s.workers w).batch.filter (mappable defaults), result⟩ ∈ s.calls
  published : ∀ r ∈ s.rows, r.publishedAt.isSome = true → Confirmed s.calls r
  quarantined : ∀ r ∈ s.rows, r.quarantinedAt.isSome = true →
    Unmappable defaults r ∨ FailedAtBudget config s.calls r
  owed : ∀ r ∈ s.rows, r.isOpen = true → config.maxAttempts ≤ r.publishAttempts →
    r.leaseFree s.now = false ∧ ∃ w, Owes (s.workers w) r

variable {config defaults}

section Invariant

variable {s : DrainState} {r : OutboxRow} {phase : DrainPhase}

theorem Owes.holdsLast (h : Owes phase r) (hopen : r.isOpen = true)
    (hbudget : config.maxAttempts ≤ r.publishAttempts) : HoldsLast config phase r := by
  obtain ⟨b, hb, hattempts⟩ := Option.map_eq_some_iff.mp h.1
  obtain ⟨hmem, hid⟩ := of_byId hb
  exact ⟨hopen, b, hmem, hid, hattempts ▸ hbudget⟩

theorem DrainInv.unstranded (h : DrainInv config defaults s) : Unstranded config defaults s := by
  refine ⟨fun r hr => ?_, h.published, h.quarantined⟩
  by_cases hopen : r.isOpen = true
  · by_cases hbudget : r.publishAttempts < config.maxAttempts
    · cases hlease : r.leaseFree s.now with
      | true => exact .inr (.inr (.inr (OutboxRow.claimable_iff.mpr ⟨hopen, hbudget, hlease⟩)))
      | false => exact .inr (.inr (.inl rfl))
    · exact .inr (.inr (.inl (h.owed r hr hopen (Nat.le_of_not_lt hbudget)).1))
  · rw [OutboxRow.isOpen_iff, not_and_or] at hopen
    rcases hopen with hpub | hquar
    · exact .inl (Option.isSome_iff_ne_none.mpr hpub)
    · exact .inr (.inl (Option.isSome_iff_ne_none.mpr hquar))

theorem DrainInv.mappable_eq (h : DrainInv config defaults s) {w : Nat} {b : LeasedOutboxRow}
    (hb : b ∈ (s.workers w).batch) (hr : r ∈ s.rows) (hid : b.id = r.id) :
    mappable defaults b = mappable defaults r.toLeasedOutboxRow := by
  obtain ⟨r', hr', heq⟩ := mem_map.mp (h.held w b hb)
  have hsame : r' = r := inj_on_of_nodup_map h.keys hr' hr ((congrArg (·.id) heq).trans hid)
  subst hsame
  rw [mappable, mappable, heq]

theorem Confirmed.mono {calls more : List PublishCall} (h : Confirmed calls r) :
    Confirmed (calls ++ more) r := by
  obtain ⟨call, hcall, hid⟩ := h
  exact ⟨call, mem_append_left _ hcall, hid⟩

theorem FailedAtBudget.mono {calls more : List PublishCall} (h : FailedAtBudget config calls r) :
    FailedAtBudget config (calls ++ more) r := by
  obtain ⟨call, hcall, hfailed⟩ := h
  exact ⟨call, mem_append_left _ hcall, hfailed⟩

end Invariant

/-! ## One worker moves -/

/-- A worker rewrites the rows that match `p` by `f` and goes on to `phase`.
`kept` is about the rows it leaves, the other three about those it rewrites. -/
structure WorkerMove (config : LeaseSafeOutboxDrainConfig) (defaults : EnvelopeDefaults)
    (s : DrainState) (w : Nat) (phase : DrainPhase) (p : OutboxRow → Bool)
    (f : OutboxRow → OutboxRow) (calls : List PublishCall) : Prop where
  canonical : ∀ r, (f r).toCanonicalOutboxRow = r.toCanonicalOutboxRow
  held : ∀ b ∈ phase.batch, b ∈ (s.workers w).batch ∨
    b.toCanonicalOutboxRow ∈ s.rows.map (·.toCanonicalOutboxRow)
  logged : ∀ result, phase.result = some result →
    ⟨phase.batch.filter (mappable defaults), result⟩ ∈ s.calls ++ calls
  kept : ∀ r ∈ s.rows, p r = false → r.isOpen = true → config.maxAttempts ≤ r.publishAttempts →
    Owes (s.workers w) r → Owes phase r
  published : ∀ r ∈ s.rows, p r = true → (f r).publishedAt.isSome = true →
    r.publishedAt.isSome = true ∨ Confirmed s.calls r
  quarantined : ∀ r ∈ s.rows, p r = true → (f r).quarantinedAt.isSome = true →
    r.quarantinedAt.isSome = true ∨ Unmappable defaults r ∨ FailedAtBudget config s.calls r
  owed : ∀ r ∈ s.rows, p r = true → (f r).isOpen = true →
    config.maxAttempts ≤ (f r).publishAttempts → (f r).leaseFree s.now = false ∧ Owes phase (f r)

namespace WorkerMove

variable {s : DrainState} {w : Nat} {phase : DrainPhase} {p : OutboxRow → Bool}
  {f : OutboxRow → OutboxRow} {calls : List PublishCall}

section

variable (h : WorkerMove config defaults s w phase p f calls)

include h

theorem id_eq (r : OutboxRow) :
    (f r).id = r.id := congrArg (·.id) (h.canonical r)

theorem confirmed_congr {r : OutboxRow}
    {all : List PublishCall} (hr : Confirmed all r) : Confirmed all (f r) := by
  unfold Confirmed
  rw [h.id_eq]
  exact hr

theorem condemned_congr {r : OutboxRow}
    {all : List PublishCall} (hr : Unmappable defaults r ∨ FailedAtBudget config all r) :
    Unmappable defaults (f r) ∨ FailedAtBudget config all (f r) := by
  unfold Unmappable FailedAtBudget mappable at *
  rw [h.id_eq, h.canonical]
  exact hr

/-- **A move keeps the invariant.** -/
theorem inv
    (hs : DrainInv config defaults s) :
    DrainInv config defaults (s.move w phase (updateWhere p f s.rows) calls) := by
  have hcanonical : (updateWhere p f s.rows).map (·.toCanonicalOutboxRow) =
      s.rows.map (·.toCanonicalOutboxRow) := map_updateWhere _ h.canonical
  refine ⟨?_, fun w' b hb => ?_, fun w' result hresult => ?_, fun r hr hpub => ?_,
    fun r hr hquar => ?_, fun r hr hopen hbudget => ?_⟩
  · exact nodup_updateWhere h.id_eq hs.keys
  · rw [DrainState.rows_move, hcanonical]
    by_cases hw : w' = w
    · subst hw
      rw [DrainState.workers_move] at hb
      exact (h.held b hb).elim (hs.held w' b) id
    · rw [s.workers_move_of_ne hw] at hb
      exact hs.held w' b hb
  · by_cases hw : w' = w
    · subst hw
      rw [DrainState.workers_move] at hresult ⊢
      exact h.logged result hresult
    · rw [s.workers_move_of_ne hw] at hresult ⊢
      exact mem_append_left _ (hs.logged w' result hresult)
  · rcases of_mem_updateWhere hr with ⟨hmem, -⟩ | ⟨r, hmem, hp, rfl⟩
    · exact (hs.published r hmem hpub).mono
    · refine h.confirmed_congr (Confirmed.mono ?_)
      exact (h.published r hmem hp hpub).elim (hs.published r hmem) id
  · rcases of_mem_updateWhere hr with ⟨hmem, -⟩ | ⟨r, hmem, hp, rfl⟩
    · exact (hs.quarantined r hmem hquar).imp_right .mono
    · refine h.condemned_congr (Or.imp_right FailedAtBudget.mono ?_)
      exact (h.quarantined r hmem hp hquar).elim (hs.quarantined r hmem) id
  · rcases of_mem_updateWhere hr with ⟨hmem, hp⟩ | ⟨r, hmem, hp, rfl⟩
    · obtain ⟨hlease, w', howes⟩ := hs.owed r hmem hopen hbudget
      refine ⟨hlease, w', ?_⟩
      by_cases hw : w' = w
      · subst hw
        rw [DrainState.workers_move]
        exact h.kept r hmem hp hopen hbudget howes
      · rw [s.workers_move_of_ne hw]
        exact howes
    · obtain ⟨hlease, howes⟩ := h.owed r hmem hp hopen hbudget
      exact ⟨hlease, w, by rwa [DrainState.workers_move]⟩

end

end WorkerMove

/-! ## The operations as moves -/

section Operations

variable {s : DrainState} {w : Nat} {batch : List LeasedOutboxRow}

variable {phase : DrainPhase}

theorem inv_move_rows {calls : List PublishCall}
    (hs : DrainInv config defaults s) (hbatch : ∀ b ∈ phase.batch, b ∈ (s.workers w).batch)
    (hlogged : ∀ result, phase.result = some result →
      ⟨phase.batch.filter (mappable defaults), result⟩ ∈ s.calls ++ calls)
    (hkept : ∀ r ∈ s.rows, r.isOpen = true → config.maxAttempts ≤ r.publishAttempts →
      Owes (s.workers w) r → Owes phase r) :
    DrainInv config defaults (s.move w phase s.rows calls) := by
  have hmove : WorkerMove config defaults s w phase (fun _ => false) id calls := by
    refine ⟨fun _ => rfl, fun b hb => .inl (hbatch b hb), hlogged,
      fun r hr _ => hkept r hr, ?_, ?_, ?_⟩ <;> intro _ _ hfalse <;> cases hfalse
  have hrows : updateWhere (fun _ => false) id s.rows = s.rows :=
    updateWhere_of_forall_not fun _ _ => rfl
  exact hrows ▸ hmove.inv hs

variable {last : Option OutboxDrainOutcome}

section

variable (hs : DrainInv config defaults s)

include hs

theorem inv_abandon
    (hnone : ∀ r ∈ s.rows, ¬ HoldsLast config (s.workers w) r) :
    DrainInv config defaults (s.move w (.idle last) s.rows []) := by
  refine inv_move_rows hs ?_ ?_ fun r hr hopen hbudget howes => ?_
  · intro b hb
    cases hb
  · intro result hresult
    cases hresult
  · exact absurd (howes.holdsLast hopen hbudget) (hnone r hr)

/-- A claimed row is under its lease, and owed by the worker that claimed it. -/
theorem inv_claim {locked : List JsString} (hidle : s.workers w = .idle last)
    (hphase : phase.batch = (claimOutboxBatch config.limit config.leaseSeconds config.maxAttempts
      s.now locked s.rows).1)
    (hnext : (∃ outcome, phase = .idle outcome) ∨ phase = .claimed phase.batch) :
    DrainInv config defaults (s.move w phase (claimOutboxBatch config.limit config.leaseSeconds
      config.maxAttempts s.now locked s.rows).2 []) := by
  refine WorkerMove.inv (p := _) (f := _) ⟨fun _ => rfl, fun b hb => ?_, ?_, ?_, ?_, ?_, ?_⟩ hs
  · rw [hphase] at hb
    obtain ⟨r, hr, rfl⟩ := mem_map.mp hb
    exact .inr (mem_map.mpr ⟨r, (of_mem_claimCandidates hr).1, rfl⟩)
  · intro result hresult
    rcases hnext with ⟨outcome, rfl⟩ | hclaimed
    · cases hresult
    · rw [hclaimed] at hresult
      cases hresult
  · intro r _ _ _ _ howes
    rw [hidle] at howes
    exact howes.2.elim
  · exact fun r _ _ hpub => .inl hpub
  · exact fun r _ _ hquar => .inl hquar
  · intro r hr hid hopen hbudget
    refine ⟨OutboxRow.leaseFree_stamp _ _ r, ?_⟩
    have hmem := mem_claimCandidates_of_id hs.keys hr hid
    have hheld : (r.stamp config.leaseSeconds s.now).toLeasedOutboxRow ∈ phase.batch :=
      hphase ▸ mem_map_of_mem hmem
    have hkeys : (phase.batch.map (·.id)).Nodup := by
      rw [hphase, claimOutboxBatch, map_map]
      exact claimCandidates_keys hs.keys
    have hby := byId_of_mem hkeys hheld
    rcases hnext with ⟨outcome, rfl⟩ | hclaimed
    · cases hheld
    · refine ⟨?_, ?_⟩
      · exact congrArg (Option.map (·.publishAttempts)) hby
      · rw [hclaimed]
        trivial

/-- What cannot be mapped is quarantined; a pass without an envelope is over. -/
theorem inv_park (hclaimed : s.workers w = .claimed batch)
    {reason : JsString}
    (hnext : (∃ outcome, phase = .idle outcome ∧ envelopesOf defaults batch = []) ∨
      ∃ unmapped, phase = .mapped batch unmapped) :
    DrainInv config defaults (s.move w phase
      (quarantineOutbox (unmappableIds defaults batch) reason s.now s.rows).2 []) := by
  refine WorkerMove.inv (p := _) (f := _) ⟨fun _ => rfl, fun b hb => ?_, ?_, ?_, ?_, ?_, ?_⟩ hs
  · rcases hnext with ⟨outcome, rfl, -⟩ | ⟨unmapped, rfl⟩
    · cases hb
    · exact .inl (by rwa [hclaimed])
  · intro result hresult
    rcases hnext with ⟨outcome, rfl, -⟩ | ⟨unmapped, rfl⟩ <;> cases hresult
  · intro r hr hp hopen _ howes
    rw [hclaimed] at howes
    rcases hnext with ⟨outcome, rfl, hempty⟩ | ⟨unmapped, rfl⟩
    · -- the row is of the batch, so it has just been quarantined
      obtain ⟨b, hb, -⟩ := Option.map_eq_some_iff.mp howes.1
      obtain ⟨hmem, hid⟩ := of_byId hb
      have hnone := envelopesOf_isEmpty.mp (List.isEmpty_iff.mpr hempty) b hmem
      have hin : r.id ∈ unmappableIds defaults batch := mem_unmappableIds.mpr ⟨b, hmem, hnone, hid⟩
      simp [hin, (OutboxRow.isOpen_iff.mp hopen).1] at hp
    · exact howes
  · exact fun r _ _ hpub => .inl hpub
  · intro r hr hp _
    rw [Bool.and_eq_true, contains_iff_mem] at hp
    obtain ⟨b, hmem, hnone, hid⟩ := mem_unmappableIds.mp hp.1
    have hb : b ∈ (s.workers w).batch := by rwa [hclaimed]
    exact .inr (.inl ((hs.mappable_eq hb hr hid).symm.trans hnone))
  · intro r _ _ hopen
    simp [OutboxRow.isOpen] at hopen

end

variable {result : OutboxPublishResult}

section

variable (hs : DrainInv config defaults s)

include hs

theorem inv_publish {unmapped : Nat}
    (hmapped : s.workers w = .mapped batch unmapped)
    (hspares : SparesLastClaims config defaults s (.publish w (some result))) :
    DrainInv config defaults (s.move w (.answered batch unmapped result) s.rows
      [⟨batch.filter (mappable defaults), result⟩]) := by
  refine inv_move_rows hs (fun b hb => by rwa [hmapped]) ?_ fun r hr hopen hbudget howes => ?_
  · rintro _ ⟨⟩
    exact mem_append_right _ (mem_singleton.mpr rfl)
  · have hnamed := hspares r hr (howes.holdsLast hopen hbudget)
    rw [hmapped] at howes
    exact ⟨howes.1, hnamed⟩

/-- Only confirmed rows are published, and the open ones that are left have failed. -/
theorem inv_mark {unmapped published : Nat}
    (hanswered : s.workers w = .answered batch unmapped result) :
    DrainInv config defaults (s.move w (.marked batch unmapped result published)
      (markOutboxPublished result.publishedEventIds s.now s.rows).2 []) := by
  have hlogged := hs.logged w result (by rw [hanswered]; rfl)
  rw [hanswered] at hlogged
  refine WorkerMove.inv (p := _) (f := _) ⟨fun _ => rfl, fun b hb => ?_, ?_, ?_, ?_, ?_, ?_⟩ hs
  · exact .inl (by rwa [hanswered])
  · rintro _ ⟨⟩
    exact mem_append_left _ hlogged
  · intro r hr hp hopen _ howes
    rw [hanswered] at howes
    refine ⟨howes.1, howes.2.resolve_left fun hin => ?_⟩
    simp [hin, (OutboxRow.isOpen_iff.mp hopen).1] at hp
  · intro r hr hp _
    rw [Bool.and_eq_true, contains_iff_mem] at hp
    exact .inr ⟨_, hlogged, hp.1⟩
  · exact fun r _ _ hquar => .inl hquar
  · intro r _ _ hopen
    simp [OutboxRow.isOpen] at hopen

/-- A failed row at its budget is quarantined, so the worker owes nothing more. -/
theorem inv_quarantine {unmapped published quarantined : Nat}
    {reason : JsString}
    (hmarked : s.workers w = .marked batch unmapped result published)
    (hspares : SparesLastClaims config defaults s (.quarantine w)) :
    DrainInv config defaults (s.move w (.judged batch quarantined result published)
      (quarantineOutbox (overBudget config batch result.failedEventIds) reason s.now s.rows).2
      []) := by
  have hlogged := hs.logged w result (by rw [hmarked]; rfl)
  rw [hmarked] at hlogged
  refine WorkerMove.inv (p := _) (f := _) ⟨fun _ => rfl, fun b hb => ?_, ?_, ?_, ?_, ?_, ?_⟩ hs
  · exact .inl (by rwa [hmarked])
  · rintro _ ⟨⟩
    exact mem_append_left _ hlogged
  · intro r hr hp hopen hbudget howes
    rw [hmarked] at howes
    obtain ⟨b, hb, hattempts⟩ := Option.map_eq_some_iff.mp howes.1
    have hover : r.id ∈ overBudget config batch result.failedEventIds := by
      refine mem_overBudget.mpr ⟨howes.2, fun b' hb' => ?_⟩
      obtain rfl : b = b' := Option.some.inj (hb.symm.trans hb')
      omega
    simp [hover, (OutboxRow.isOpen_iff.mp hopen).1] at hp
  · exact fun r _ _ hpub => .inl hpub
  · intro r hr hp _
    rw [Bool.and_eq_true, contains_iff_mem, Option.isNone_iff_eq_none] at hp
    obtain ⟨hfailed, hattempts⟩ := mem_overBudget.mp hp.1
    by_cases hquar : r.quarantinedAt = none
    · refine .inr ?_
      cases hby : byId batch r.id with
      | none =>
        -- not a row of the batch: the condition on the step
        refine hspares result (by rw [hmarked]; rfl) r hr
          (OutboxRow.isOpen_iff.mpr ⟨hp.2, hquar⟩) hfailed ?_
        rw [hmarked]
        exact byId_eq_none.mp hby
      | some b =>
        obtain ⟨hmem, hid⟩ := of_byId hby
        cases hmap : mappable defaults b with
        | true =>
          refine .inr ⟨_, hlogged, hfailed, b, ?_, hid, hattempts b hby⟩
          exact mem_filter.mpr ⟨hmem, hmap⟩
        | false =>
          have hb : b ∈ (s.workers w).batch := by rwa [hmarked]
          exact .inl ((hs.mappable_eq hb hr hid).symm.trans hmap)
    · exact .inl (Option.isSome_iff_ne_none.mpr hquar)
  · intro r _ _ hopen
    simp [OutboxRow.isOpen] at hopen

theorem inv_release {quarantined published : Nat}
    {lastError : JsString}
    (hjudged : s.workers w = .judged batch quarantined result published)
    (hspares : SparesLastClaims config defaults s (.release w)) :
    DrainInv config defaults (s.move w (.idle last)
      (releaseOutboxLease (retryable config batch result.failedEventIds) lastError s.rows).2
      []) := by
  refine WorkerMove.inv (p := _) (f := _) ⟨fun _ => rfl, fun b hb => ?_, ?_, ?_, ?_, ?_, ?_⟩ hs
  · cases hb
  · intro _ hresult
    cases hresult
  · intro r _ _ _ _ howes
    rw [hjudged] at howes
    exact howes.2.elim
  · exact fun r _ _ hpub => .inl hpub
  · exact fun r _ _ hquar => .inl hquar
  · intro r hr hp hopen hbudget
    rw [Bool.and_eq_true, contains_iff_mem] at hp
    obtain ⟨hfailed, b, hb, hearlier⟩ := mem_retryable.mp hp.1
    obtain ⟨hmem, hid⟩ := of_byId hb
    have hless := hspares result (by rw [hjudged]; rfl) r hr hp.2 hfailed
      ⟨b, by rwa [hjudged], hid, hearlier⟩
    exact absurd hbudget (Nat.not_le_of_lt hless)

end

end Operations

/-! ## Over runs -/

theorem inv_append {s : DrainState} {row : CanonicalOutboxRow} (hs : DrainInv config defaults s)
    (hnew : ∀ r ∈ s.rows, r.id ≠ row.id) :
    DrainInv config defaults { s with rows := s.rows ++ [.fresh row] } := by
  have hcases : ∀ r ∈ s.rows ++ [.fresh row], r ∈ s.rows ∨ r = .fresh row := by
    simp
  refine ⟨?_, fun w b hb => ?_, hs.logged, fun r hr hpub => ?_, fun r hr hquar => ?_,
    fun r hr hopen hbudget => ?_⟩
  · exact nodup_concat hs.keys hnew
  · rw [map_append]
    exact mem_append_left _ (hs.held w b hb)
  · rcases hcases r hr with hold | rfl
    · exact hs.published r hold hpub
    · cases hpub
  · rcases hcases r hr with hold | rfl
    · exact hs.quarantined r hold hquar
    · cases hquar
  · rcases hcases r hr with hold | rfl
    · exact hs.owed r hold hopen hbudget
    · exact absurd hbudget (Nat.not_le_of_lt config.budget)

theorem inv_tick {s : DrainState} {ms : Nat} (hs : DrainInv config defaults s)
    (hspares : SparesLastClaims config defaults s (.tick ms)) :
    DrainInv config defaults { s with now := s.now + ms } := by
  refine ⟨hs.keys, hs.held, hs.logged, hs.published, hs.quarantined, fun r hr hopen hbudget => ?_⟩
  obtain ⟨-, w, howes⟩ := hs.owed r hr hopen hbudget
  exact ⟨hspares w r hr (howes.holdsLast hopen hbudget), w, howes⟩

theorem step_inv {s t : DrainState} {a : DrainAction} (hs : DrainInv config defaults s)
    (hstep : drainStep config defaults s a t) (hspares : SparesLastClaims config defaults s a) :
    DrainInv config defaults t := by
  cases drainStep_move hstep with
  | append fresh => exact inv_append hs fresh
  | tick => exact inv_tick hs hspares
  | claim idle batch next => exact inv_claim hs idle batch next
  | park claimed next => exact inv_park hs claimed next
  | threw | crash => exact inv_abandon hs hspares
  | publish mapped => exact inv_publish hs mapped hspares
  | mark answered => exact inv_mark hs answered
  | quarantine marked => exact inv_quarantine hs marked hspares
  | release judged => exact inv_release hs judged hspares

theorem start_inv (now : Nat) : DrainInv config defaults (.start now) where
  keys := nodup_nil
  held := fun _ _ hb => by cases hb
  logged := fun _ _ hresult => by cases hresult
  published := fun _ hr => by cases hr
  quarantined := fun _ hr => by cases hr
  owed := fun _ hr => by cases hr

/-- **No event is stranded while the last claims are spared.** In every state of
every run of any number of workers. -/
theorem drain_never_strands (config : LeaseSafeOutboxDrainConfig) (defaults : EnvelopeDefaults)
    {now : Nat} {actions : List DrainAction} {s : DrainState}
    (hrun : Run (Guarded (drainStep config defaults) (SparesLastClaims config defaults))
      (.start now) actions s) :
    Unstranded config defaults s := by
  have hinv : DrainInv config defaults s :=
    hrun.invariant (I := DrainInv config defaults)
      (fun _ _ _ hs hstep => step_inv hs hstep.1 hstep.2) (start_inv now)
  exact hinv.unstranded

def intakeDefaults : EnvelopeDefaults where
  source := js "talent-intake"
  eventVersion := js "v1"
  subjectTypeFor := fun _ => some (js "talent_intake_draft")
  subjectIdFor := fun _ => none
  correlationIdFor := none

def intakeRow (id : String) (subjectId : Option JsString) : CanonicalOutboxRow where
  id := js id
  tenantId := js "t"
  eventType := js "talent_intake.extraction_requested"
  eventPayload := .null
  createdAt := 0
  eventVersion := none
  source := none
  subjectType := none
  subjectId := subjectId
  correlationId := none
  causationId := none

/-- One pass over three rows on their last attempt: one is confirmed, one fails
and one has no subject. -/
def lastAttempts : List DrainAction :=
  [.append (intakeRow "a" (some (js "d"))), .append (intakeRow "b" (some (js "e"))),
    .append (intakeRow "c" none), .claim 0 [], .park 0, .publish 0 (some ⟨[js "a"], [js "b"]⟩),
    .mark 0, .quarantine 0, .release 0]

def oneAttempt : LeaseSafeOutboxDrainConfig := ⟨50, 60, 1, by decide⟩

theorem last_attempts_end :
    ∃ s, Run (Guarded (drainStep oneAttempt intakeDefaults)
        (SparesLastClaims oneAttempt intakeDefaults)) (.start 0) lastAttempts s ∧
      s.rows.map (fun r => (r.publishedAt.isSome, r.quarantineReason)) =
        [(true, none), (false, some (js "max_publish_attempts_exceeded")),
          (false, some (js "envelope_mapping_failed"))] ∧
      Unstranded oneAttempt intakeDefaults s := by
  have hrun : Run (Guarded (drainStep oneAttempt intakeDefaults)
      (SparesLastClaims oneAttempt intakeDefaults)) (.start 0) lastAttempts _ :=
    .cons ⟨rfl, trivial⟩ <| .cons ⟨rfl, trivial⟩ <| .cons ⟨rfl, trivial⟩ <|
      .cons ⟨rfl, trivial⟩ <| .cons ⟨rfl, trivial⟩ <|
        .cons ⟨rfl, by unfold SparesLastClaims HoldsLast; decide⟩ <| .cons ⟨rfl, trivial⟩ <|
          .cons ⟨rfl, fun _ h => by cases h; unfold Unmappable FailedAtBudget; decide⟩ <|
            .cons ⟨rfl, fun _ h => by cases h; decide⟩ (.nil _)
  exact ⟨_, hrun, by decide, drain_never_strands _ _ hrun⟩

/-! ## A bus that is not configured -/

/-- Five attempts of a minute each. -/
def defaultDrainConfig : LeaseSafeOutboxDrainConfig := ⟨50, 60, 5, by decide⟩

/-- Five passes whose publisher throws, each after the lease of the one before. -/
def throwingBus : List DrainAction :=
  .append (intakeRow "a" (some (js "d"))) ::
    (replicate 5 [.claim 0 [], .park 0, .publish 0 none, .tick 60001]).flatten

/-- The row has used up its attempts, nobody works on it, and it stays as it is. -/
theorem throwing_bus_strands :
    ¬ ∀ (config : LeaseSafeOutboxDrainConfig) (defaults : EnvelopeDefaults) (now : Nat)
        (actions : List DrainAction) (s : DrainState),
        Run (drainStep config defaults) (.start now) actions s → Unstranded config defaults s := by
  intro hclaim
  have hexec : (exec (drainNext defaultDrainConfig intakeDefaults) (.start 0) throwingBus).any
      (fun s => s.rows.any fun r => r.isOpen && r.leaseFree s.now && r.publishAttempts == 5) =
        true := by
    decide
  have hnext : ∀ s a t, drainNext defaultDrainConfig intakeDefaults s a = some t →
      drainStep defaultDrainConfig intakeDefaults s a t := fun _ _ _ h => h
  obtain ⟨s, hrun, hrow⟩ := run_of_exec hnext hexec
  obtain ⟨r, hr, hstranded⟩ := any_eq_true.mp hrow
  simp only [Bool.and_eq_true, beq_iff_eq, OutboxRow.isOpen_iff] at hstranded
  obtain ⟨⟨⟨hpub, hquar⟩, hlease⟩, hattempts⟩ := hstranded
  have hkept := (hclaim _ _ _ _ _ hrun).kept r hr
  simp [hpub, hquar, hlease, OutboxRow.claimable_iff, hattempts, defaultDrainConfig] at hkept

end AramoPlatform.Events
