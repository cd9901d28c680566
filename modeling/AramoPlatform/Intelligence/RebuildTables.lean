import AramoPlatform.Intelligence.RebuildEffects

/-!
# Facts, trust and proposals after a rebuild

What each of the three tables shows once a rebuild has written it, and that
writing the same result into it again changes nothing.
-/

namespace AramoPlatform.Intelligence

open Js Lib List

section Facts

variable {subjectId : Nat} {rows : List ResolvedProfileFact} {facts : List ProjectedFact}

/-- Every fact is stored as it is, and the subject has no other. -/
structure FactsStored (subjectId : Nat) (facts : List ProjectedFact)
    (rows : List ResolvedProfileFact) : Prop where
  stored : ∀ f ∈ facts, ∃ r, findKey (·.key) (factRow subjectId f).key rows = some r ∧
    r.signature = (factRow subjectId f).signature
  only : ∀ r ∈ rows, r.key.subjectId = subjectId → ∃ f ∈ facts, (factRow subjectId f).key = r.key

theorem findKey_deleteFact {k k' : FactKey} (hne : k ≠ k') (rows : List ResolvedProfileFact) :
    findKey (·.key) k (deleteFact rows k') = findKey (·.key) k rows := by
  rw [findKey, deleteFact, find?_filter]
  refine congrArg (fun q => rows.find? q) (funext fun r => ?_)
  by_cases hk : r.key = k
  · simp [hk, hne]
  · simp [hk]

theorem mem_deleteFacts {keys : List FactKey} {r : ResolvedProfileFact} :
    r ∈ keys.foldl deleteFact rows ↔ r ∈ rows ∧ r.key ∉ keys := by
  induction keys generalizing rows with
  | nil => simp
  | cons k rest ih =>
    rw [foldl_cons, ih, deleteFact, mem_filter, mem_cons, not_or, bne_iff_ne]
    exact and_assoc

theorem findKey_deleteFacts {keys : List FactKey} {k : FactKey} (hk : k ∉ keys) :
    findKey (·.key) k (keys.foldl deleteFact rows) = findKey (·.key) k rows := by
  induction keys generalizing rows with
  | nil => rfl
  | cons k' rest ih =>
    rw [mem_cons, not_or] at hk
    rw [foldl_cons, ih hk.2, findKey_deleteFact hk.1]

theorem mem_vanishedFacts {r : ResolvedProfileFact} :
    r ∈ vanishedFacts subjectId rows facts ↔ r ∈ rows ∧ r.key.subjectId = subjectId ∧
      ∀ f ∈ facts, (factRow subjectId f).key ≠ r.key := by
  simp [vanishedFacts]

theorem mem_changedFacts {f : ProjectedFact} :
    f ∈ changedFacts subjectId rows facts ↔ f ∈ facts ∧
      (findKey (·.key) (factRow subjectId f).key rows).map (·.signature) ≠
        some (factRow subjectId f).signature := by
  simp [changedFacts]

theorem applyFacts_stored
    (hkey : ∀ f ∈ facts, ∀ g ∈ facts, (factRow subjectId f).key =
      (factRow subjectId g).key → f = g) :
    FactsStored subjectId facts (applyFacts subjectId facts rows).1 := by
  have hinj : ∀ a ∈ (changedFacts subjectId rows facts).map (factRow subjectId),
      ∀ b ∈ (changedFacts subjectId rows facts).map (factRow subjectId), a.key = b.key → a = b := by
    intro a ha b hb hab
    obtain ⟨f, hf, rfl⟩ := mem_map.mp ha
    obtain ⟨g, hg, rfl⟩ := mem_map.mp hb
    rw [hkey f (mem_changedFacts.mp hf).1 g (mem_changedFacts.mp hg).1 hab]
  constructor
  · intro f hf
    have hnotVanished : (factRow subjectId f).key ∉
        (vanishedFacts subjectId rows facts).map (·.key) := by
      intro hmem
      obtain ⟨r, hr, hrk⟩ := mem_map.mp hmem
      exact (mem_vanishedFacts.mp hr).2.2 f hf hrk.symm
    rw [applyFacts, findKey_deleteFacts hnotVanished]
    by_cases hchanged : f ∈ changedFacts subjectId rows facts
    · exact ⟨_, findKey_foldl_upsert hinj (mem_map_of_mem hchanged), rfl⟩
    · -- an unchanged fact is stored already, and no changed one has its key
      rw [findKey_foldl_upsert_of_ne]
      · have hsame : (findKey (·.key) (factRow subjectId f).key rows).map (·.signature) =
            some (factRow subjectId f).signature := by
          by_contra hne
          exact hchanged (mem_changedFacts.mpr ⟨hf, hne⟩)
        obtain ⟨r, hr, hsig⟩ := Option.map_eq_some_iff.mp hsame
        exact ⟨r, hr, hsig⟩
      · intro r hr heq
        obtain ⟨g, hg, rfl⟩ := mem_map.mp hr
        exact hchanged (hkey g (mem_changedFacts.mp hg).1 f hf heq ▸ hg)
  · intro r hr hsubject
    rw [applyFacts, mem_deleteFacts] at hr
    obtain ⟨hmem, hkept⟩ := hr
    rcases mem_foldl_upsert hmem with hnew | hold
    · obtain ⟨f, hf, rfl⟩ := mem_map.mp hnew
      exact ⟨f, (mem_changedFacts.mp hf).1, rfl⟩
    · by_contra hnone
      refine hkept (mem_map_of_mem (mem_vanishedFacts.mpr ⟨hold, hsubject,
        fun f hf heq => ?_⟩))
      exact hnone ⟨f, hf, heq⟩

theorem applyFacts_of_stored (h : FactsStored subjectId facts rows) :
    applyFacts subjectId facts rows = (rows, []) := by
  have hchanged : changedFacts subjectId rows facts = [] := by
    rw [eq_nil_iff_forall_not_mem]
    intro f hf
    obtain ⟨hmem, hne⟩ := mem_changedFacts.mp hf
    obtain ⟨r, hr, hsig⟩ := h.stored f hmem
    exact hne (by rw [hr, Option.map_some, hsig])
  have hvanished : vanishedFacts subjectId rows facts = [] := by
    rw [eq_nil_iff_forall_not_mem]
    intro r hr
    obtain ⟨hmem, hsubject, hnone⟩ := mem_vanishedFacts.mp hr
    obtain ⟨f, hf, hk⟩ := h.only r hmem hsubject
    exact hnone f hf hk
  simp only [applyFacts, hchanged, hvanished, map_nil, foldl_nil, append_nil]

end Facts

/-! ## Trust -/

theorem applyTrust_again (subjectId now : Nat) (trust : TrustState) (rows :
    List SubjectTrustState) :
    applyTrust subjectId trust now (applyTrust subjectId trust now rows).1 =
      ((applyTrust subjectId trust now rows).1, false) := by
  have hfound : findKey (·.subjectId) subjectId
      (upsert (·.subjectId) rows (⟨subjectId, trust, now⟩ : SubjectTrustState)) =
        some ⟨subjectId, trust, now⟩ := by
    rw [findKey_upsert, if_pos rfl]
  simp only [applyTrust, upsert_upsert, hfound, Option.map_some, bne_self_eq_false]

/-! ## Proposals -/

section Proposals

variable {tenant tenant' : TenantKey} {subjectId now : Nat} {rows : List VerificationProposal}
  {desired : List DesiredProposal} {d : DesiredProposal} {k : ProposalKey}
    {p : VerificationProposal}

theorem findKey_refresh {k' : ProposalKey} :
    findKey (fun p : VerificationProposal => p.key) k
        (updateWhere (fun p : VerificationProposal => p.key = k') (refreshProposal d) rows) =
      if k' = k then (findKey (fun p : VerificationProposal => p.key) k rows).map
        (refreshProposal d)
      else findKey (fun p : VerificationProposal => p.key) k rows :=
  findKey_updateWhere (f := refreshProposal d) fun _ h => h

/-- Every desired proposal has its row, which says what is desired while it is
open; and no open row stands for anything else. -/
structure ProposalsSettled (tenant : TenantKey) (subjectId : Nat) (desired : List DesiredProposal)
    (rows : List VerificationProposal) : Prop where
  there : ∀ d ∈ desired, ∃ p, findKey (·.key) (d.key tenant subjectId) rows = some p ∧
    (p.status = .opened → p.saysWhat d = true)
  cleared : ∀ p ∈ rows, triggerCleared tenant subjectId desired p = false

/-- One key asks for one thing. -/
def OneForEachKey (desired : List DesiredProposal) : Prop :=
  ∀ d ∈ desired, ∀ e ∈ desired, d.kind = e.kind → d.basisRef = e.basisRef → d = e

theorem key_eq_iff {e : DesiredProposal} :
    d.key tenant subjectId = e.key tenant subjectId ↔ d.kind = e.kind ∧
      d.basisRef = e.basisRef := by
  simp [DesiredProposal.key]

theorem findKey_syncProposal_self :
    ∃ p, findKey (·.key) (d.key tenant subjectId) (syncProposal tenant subjectId rows d) = some p ∧
      (p.status = .opened → p.saysWhat d = true) := by
  unfold syncProposal
  split
  next hnone =>
    refine ⟨newProposal tenant subjectId d, ?_, fun _ => ?_⟩
    · have hk : (newProposal tenant subjectId d).key = d.key tenant subjectId := rfl
      rw [← hk, findKey_append_singleton hnone, if_pos rfl]
    · simp [VerificationProposal.saysWhat, newProposal]
  next p hsome =>
    split
    · refine ⟨refreshProposal d p, ?_, fun _ => ?_⟩
      · rw [findKey_refresh, if_pos rfl, hsome, Option.map_some]
      · simp [VerificationProposal.saysWhat, refreshProposal]
    next hsaid =>
      refine ⟨p, hsome, fun hopen => ?_⟩
      rw [← Bool.not_eq_false]
      exact fun hfalse => hsaid ⟨hopen, hfalse⟩

theorem findKey_syncProposal_ne (hne : d.key tenant subjectId ≠ k) :
    findKey (·.key) k (syncProposal tenant subjectId rows d) = findKey (·.key) k rows := by
  unfold syncProposal
  split
  next hnone =>
    have hk : (newProposal tenant subjectId d).key ≠ k := hne
    rw [findKey_append_singleton hnone, if_neg hk]
  next p hsome =>
    split
    · rw [findKey_refresh, if_neg hne]
    · rfl

theorem findKey_syncAll_ne (hne : ∀ d ∈ desired, d.key tenant subjectId ≠ k) :
    findKey (·.key) k (desired.foldl (syncProposal tenant subjectId) rows) =
      findKey (·.key) k rows := by
  induction desired generalizing rows with
  | nil => rfl
  | cons d rest ih =>
    rw [foldl_cons, ih fun e he => hne e (mem_cons_of_mem _ he),
      findKey_syncProposal_ne (hne d mem_cons_self)]

theorem there_syncAll (hone : OneForEachKey desired) (hd : d ∈ desired) :
    ∃ p, findKey (·.key) (d.key tenant subjectId)
        (desired.foldl (syncProposal tenant subjectId) rows) = some p ∧
      (p.status = .opened → p.saysWhat d = true) := by
  induction desired generalizing rows with
  | nil => cases hd
  | cons e rest ih =>
    have hrest : OneForEachKey rest := fun x hx y hy =>
      hone x (mem_cons_of_mem _ hx) y (mem_cons_of_mem _ hy)
    rw [foldl_cons]
    by_cases hmem : d ∈ rest
    · exact ih hrest hmem
    · obtain rfl : d = e := (mem_cons.mp hd).resolve_right hmem
      rw [findKey_syncAll_ne]
      · exact findKey_syncProposal_self
      · intro x hx heq
        obtain ⟨hkind, hbasis⟩ := key_eq_iff.mp heq
        exact hmem (hone x (mem_cons_of_mem _ hx) d mem_cons_self hkind hbasis ▸ hx)

theorem not_triggerCleared_of_key {p : VerificationProposal} (hd : d ∈ desired)
    (hk : p.key = d.key tenant subjectId) : triggerCleared tenant subjectId desired p = false := by
  have hany : (desired.any fun d => d.key tenant subjectId == p.key) = true :=
    any_eq_true.mpr ⟨d, hd, by simp [hk]⟩
  rw [triggerCleared, hany, Bool.not_true, Bool.and_false]

theorem not_triggerCleared_settled (p : VerificationProposal) :
    triggerCleared tenant subjectId desired (settleProposal now p) = false := by
  have hstatus : ((settleProposal now p).status == .opened) = false := rfl
  rw [triggerCleared, hstatus, Bool.and_false, Bool.false_and]

theorem syncProposals_settled (hone : OneForEachKey desired) :
    ProposalsSettled tenant subjectId desired
      (syncProposals tenant subjectId now desired rows) := by
  constructor
  · intro d hd
    obtain ⟨p, hp, hsaid⟩ : ∃ p, findKey (·.key) (d.key tenant subjectId)
        (desired.foldl (syncProposal tenant subjectId) rows) = some p ∧
        (p.status = .opened → p.saysWhat d = true) := there_syncAll hone hd
    refine ⟨p, ?_, hsaid⟩
    have hkept := not_triggerCleared_of_key hd (findKey_key hp)
    rw [syncProposals, findKey, find?_updateWhere (f := settleProposal now) fun r => rfl]
    have hfind : (desired.foldl (syncProposal tenant subjectId) rows).find?
        (fun x => x.key = d.key tenant subjectId) = some p := hp
    rw [hfind, Option.map_some, hkept, if_neg Bool.false_ne_true]
  · intro p hp
    rcases of_mem_updateWhere hp with ⟨-, hfalse⟩ | ⟨q, -, -, rfl⟩
    · exact hfalse
    · exact not_triggerCleared_settled q

theorem syncProposals_of_settled (h : ProposalsSettled tenant subjectId desired rows) :
    syncProposals tenant subjectId now desired rows = rows := by
  have hone : ∀ d ∈ desired, syncProposal tenant subjectId rows d = rows := by
    intro d hd
    obtain ⟨p, hp, hsaid⟩ := h.there d hd
    rw [syncProposal, hp]
    refine if_neg ?_
    rintro ⟨hopen, hfalse⟩
    rw [hsaid hopen] at hfalse
    cases hfalse
  have hall : ∀ ds : List DesiredProposal, (∀ d ∈ ds, syncProposal tenant subjectId rows d = rows) →
      ds.foldl (syncProposal tenant subjectId) rows = rows := by
    intro ds hds
    induction ds with
    | nil => rfl
    | cons d rest ih =>
      rw [foldl_cons, hds d mem_cons_self, ih fun e he =>
        hds e (mem_cons_of_mem _ he)]
  rw [syncProposals, hall desired hone]
  exact updateWhere_of_forall_not h.cleared

theorem ProposalsSettled.congr {desired' : List DesiredProposal}
    (h : ProposalsSettled tenant subjectId desired rows) (hmem : ∀ d, d ∈ desired' ↔ d ∈ desired) :
    ProposalsSettled tenant subjectId desired' rows := by
  refine ⟨fun d hd => h.there d ((hmem d).mp hd), fun p hp => ?_⟩
  have hany : (desired'.any fun d => d.key tenant subjectId == p.key) =
      desired.any fun d => d.key tenant subjectId == p.key := by
    rw [Bool.eq_iff_iff, any_eq_true, any_eq_true]
    exact exists_congr fun d => and_congr_left fun _ => hmem d
  have hcleared := h.cleared p hp
  rw [triggerCleared] at hcleared ⊢
  rw [hany, hcleared]

theorem mem_syncProposals_other {p : VerificationProposal}
    (hp : p ∈ syncProposals tenant subjectId now desired rows) (hne : p.key.tenant ≠ tenant) :
    p ∈ rows := by
  have hstep : ∀ (d : DesiredProposal) (rows : List VerificationProposal),
      p ∈ syncProposal tenant subjectId rows d → p ∈ rows := by
    intro d rows hp
    unfold syncProposal at hp
    split at hp
    · rcases mem_append.mp hp with hp | hp
      · exact hp
      · exact absurd (mem_singleton.mp hp ▸ rfl) hne
    · split at hp
      · rcases of_mem_updateWhere hp with ⟨hp, -⟩ | ⟨q, -, hq, rfl⟩
        · exact hp
        · have hk : q.key = d.key tenant subjectId := by simpa using hq
          exact absurd (by show q.key.tenant = tenant; rw [hk]; rfl) hne
      · exact hp
  have hall : ∀ (ds : List DesiredProposal) (rows : List VerificationProposal),
      p ∈ ds.foldl (syncProposal tenant subjectId) rows → p ∈ rows := by
    intro ds
    induction ds with
    | nil => exact fun rows hp => hp
    | cons d rest ih => exact fun rows hp => hstep d rows (ih _ hp)
  rcases of_mem_updateWhere hp with ⟨hp, -⟩ | ⟨q, -, hq, rfl⟩
  · exact hall desired rows hp
  · rw [triggerCleared] at hq
    simp only [Bool.and_eq_true, beq_iff_eq] at hq
    exact absurd hq.1.1.1 hne

theorem findKey_syncProposals_other (hne : k.tenant ≠ tenant) :
    findKey (·.key) k (syncProposals tenant subjectId now desired rows) =
      findKey (·.key) k rows := by
  have hkeys : ∀ d ∈ desired, d.key tenant subjectId ≠ k := by
    rintro d - rfl
    exact hne rfl
  have hfold : findKey (fun p : VerificationProposal => p.key) k
      (desired.foldl (syncProposal tenant subjectId) rows) =
      findKey (fun p : VerificationProposal => p.key) k rows := findKey_syncAll_ne hkeys
  rw [syncProposals, findKey, find?_updateWhere (f := settleProposal now) fun r => rfl]
  rw [findKey] at hfold
  rw [hfold]
  cases hfind : findKey (·.key) k rows with
  | none => rfl
  | some p =>
    have hk : p.key = k := findKey_key hfind
    have hkept : triggerCleared tenant subjectId desired p = false := by
      have htenant : (p.key.tenant == tenant) = false := beq_eq_false_iff_ne.mpr (hk ▸ hne)
      rw [triggerCleared, htenant, Bool.false_and, Bool.false_and, Bool.false_and]
    rw [Option.map_some, hkept, if_neg Bool.false_ne_true]

theorem ProposalsSettled.other {desired' : List DesiredProposal}
    (h : ProposalsSettled tenant' subjectId desired' rows) (hne : tenant' ≠ tenant) :
    ProposalsSettled tenant' subjectId desired'
      (syncProposals tenant subjectId now desired rows) := by
  constructor
  · intro d hd
    have hk : (d.key tenant' subjectId).tenant ≠ tenant := hne
    rw [findKey_syncProposals_other hk]
    exact h.there d hd
  · intro p hp
    by_cases htenant : p.key.tenant = tenant'
    · exact h.cleared p (mem_syncProposals_other hp (htenant ▸ hne))
    · have hfalse : (p.key.tenant == tenant') = false := beq_eq_false_iff_ne.mpr htenant
      rw [triggerCleared, hfalse, Bool.false_and, Bool.false_and, Bool.false_and]

/-- After all tenants were synchronised the proposals of each are settled. -/
theorem syncTenants_settled {tenants : List TenantKey} {want : TenantKey → List DesiredProposal}
    (hnd : tenants.Nodup) (hone : ∀ t ∈ tenants, OneForEachKey (want t)) {t : TenantKey}
    (ht : t ∈ tenants) :
    ProposalsSettled t subjectId (want t)
      (tenants.foldl (fun rows t => syncProposals t subjectId now (want t) rows) rows) := by
  have hkeep : ∀ (ts : List TenantKey) (rows : List VerificationProposal), t ∉ ts →
      ProposalsSettled t subjectId (want t) rows →
      ProposalsSettled t subjectId (want t)
        (ts.foldl (fun rows t => syncProposals t subjectId now (want t) rows) rows) := by
    intro ts
    induction ts with
    | nil => exact fun rows _ h => h
    | cons u rest ih =>
      intro rows hnot h
      rw [mem_cons, not_or] at hnot
      exact ih _ hnot.2 (h.other hnot.1)
  induction tenants generalizing rows with
  | nil => cases ht
  | cons u rest ih =>
    obtain ⟨hnew, hrest⟩ := nodup_cons.mp hnd
    rw [foldl_cons]
    rcases mem_cons.mp ht with rfl | ht
    · exact hkeep rest _ hnew (syncProposals_settled (hone t mem_cons_self))
    · exact ih hrest (fun v hv => hone v (mem_cons_of_mem _ hv)) ht

theorem syncTenants_of_settled {tenants : List TenantKey} {want : TenantKey → List DesiredProposal}
    (h : ∀ t ∈ tenants, ProposalsSettled t subjectId (want t) rows) :
    tenants.foldl (fun rows t => syncProposals t subjectId now (want t) rows) rows = rows := by
  induction tenants with
  | nil => rfl
  | cons t rest ih =>
    rw [foldl_cons, syncProposals_of_settled (h t mem_cons_self),
      ih fun u hu => h u (mem_cons_of_mem _ hu)]

end Proposals

end AramoPlatform.Intelligence
