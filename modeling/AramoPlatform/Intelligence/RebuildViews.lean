import AramoPlatform.Intelligence.RebuildTables
import AramoPlatform.Intelligence.Survivors

/-!
# What a second rebuild reads and wants

The rows that a second rebuild reads are those of the first under the statuses
that it wrote, in some order. So it computes the same projection, and every
tenant's view asks for the same proposals.
-/

namespace AramoPlatform.Intelligence

open Js Lib List

/-! ## Digests -/

/-- No two of the identifiers collide under SHA-256. -/
def DigestsTell (host : Host) (identifiers : List SubjectIdentifier) : Prop :=
  ∀ i ∈ identifiers, ∀ j ∈ identifiers,
    identifierDigest host i.key = identifierDigest host j.key → i.key.text = j.key.text

theorem identifierType_eq_of_text {k k' : IdentifierKey} (h : k.text = k'.text) :
    k.identifierType = k'.identifierType := by
  have hhead : ∀ k : IdentifierKey, k.text.head? = k.identifierType.text.head? := by
    rintro ⟨_ | _ | _, v⟩ <;> rfl
  have htype : ∀ t t' : IdentifierType, t.text.head? = t'.text.head? → t = t' := by
    intro t t'
    cases t <;> cases t' <;> decide
  exact htype _ _ (by rw [← hhead, ← hhead, h])

/-! ## Contacts -/

section Contacts

variable {host : Host} {identifiers identifiers' : List SubjectIdentifier}

/-- The contacts that a view may ask about. -/
def ContactOf (identifiers : List SubjectIdentifier) (i : SubjectIdentifier) : Prop :=
  i ∈ identifiers ∧ i.status = .active ∧ i.key.identifierType ≠ .govId

theorem mem_contactSlots (htell : DigestsTell host identifiers) {s : ContactSlot} :
    s ∈ contactSlots host identifiers ↔ ∃ i, ContactOf identifiers i ∧
      s = ⟨i.key.identifierType, identifierDigest host i.key⟩ := by
  have hmem : ∀ x : ContactSlot, x ∈ (identifiers.filter fun i =>
      i.status == .active && i.key.identifierType != .govId).map
        (fun i => (⟨i.key.identifierType, identifierDigest host i.key⟩ : ContactSlot)) ↔
      ∃ i, ContactOf identifiers i ∧ x = ⟨i.key.identifierType, identifierDigest host i.key⟩ := by
    intro x
    simp only [mem_map, mem_filter, Bool.and_eq_true, beq_iff_eq, bne_iff_ne, ne_eq,
      ContactOf, eq_comm (a := x)]
  unfold contactSlots
  dsimp only
  rw [(perm_insertionSort _ _).mem_iff]
  constructor
  · intro h
    exact (hmem s).mp ((mem_foldl_upsert h).resolve_right not_mem_nil)
  · intro h
    -- a digest names one slot, so no later one takes its place
    refine mem_foldl_upsert_self (fun x hx y hy hxy => ?_) ((hmem s).mpr h)
    obtain ⟨i, hi, rfl⟩ := (hmem x).mp hx
    obtain ⟨j, hj, rfl⟩ := (hmem y).mp hy
    have htype := identifierType_eq_of_text (htell i hi.1 j hj.1 hxy)
    exact congrArg₂ ContactSlot.mk htype hxy

theorem contactSlots_digest (htell : DigestsTell host identifiers) {s s' : ContactSlot}
    (hs : s ∈ contactSlots host identifiers) (hs' : s' ∈ contactSlots host identifiers)
    (h : s.digest = s'.digest) : s = s' := by
  obtain ⟨i, hi, rfl⟩ := (mem_contactSlots htell).mp hs
  obtain ⟨j, hj, rfl⟩ := (mem_contactSlots htell).mp hs'
  exact congrArg₂ ContactSlot.mk (identifierType_eq_of_text (htell i hi.1 j hj.1 h)) h

theorem DigestsTell.subset (h : DigestsTell host identifiers)
    (hsub : ∀ i ∈ identifiers', i ∈ identifiers) : DigestsTell host identifiers' :=
  fun i hi j hj => h i (hsub i hi) j (hsub j hj)

theorem mem_contactSlots_perm (htell : DigestsTell host identifiers)
    (hp : identifiers.Perm identifiers') {s : ContactSlot} :
    s ∈ contactSlots host identifiers' ↔ s ∈ contactSlots host identifiers := by
  rw [mem_contactSlots (htell.subset fun i hi => hp.mem_iff.mpr hi), mem_contactSlots htell]
  refine exists_congr fun i => and_congr_left fun _ => ?_
  rw [ContactOf, ContactOf, hp.mem_iff]

end Contacts

/-! ## Proposals -/

section Proposals

variable {host : Host} {l l' : List Assertion} {identifiers identifiers' : List SubjectIdentifier}
  {σ : Assertion → AssertionStatus} {r r' : ProjectionResult} {now : Nat}

theorem foldl_max_perm {xs ys : List Nat} (h : xs.Perm ys) : xs.foldl max 0 = ys.foldl max 0 :=
  h.foldl_eq 0

theorem latestVerification_congr (hp : (l.map (withStatus σ)).Perm l')
    (hs : ∀ id, r.statusOf id = r'.statusOf id) (digest : JsString) :
    latestVerification r l digest = latestVerification r' l' digest := by
  have htimes : ((l.filter fun a => a.assertionType == .verificationOutcome &&
        a.sourceKind == .verification && (r.statusOf a.id).isSome &&
        stringMember a.payload (js "identifier_digest") == some digest).map (·.observedAt)).Perm
      ((l'.filter fun a => a.assertionType == .verificationOutcome &&
        a.sourceKind == .verification && (r'.statusOf a.id).isSome &&
        stringMember a.payload (js "identifier_digest") == some digest).map (·.observedAt)) := by
    have hfilter := (hp.filter fun a => a.assertionType == .verificationOutcome &&
      a.sourceKind == .verification && (r'.statusOf a.id).isSome &&
      stringMember a.payload (js "identifier_digest") == some digest).map (·.observedAt)
    rw [filter_map, map_map] at hfilter
    simp only [hs]
    exact hfilter
  unfold latestVerification
  dsimp only
  rw [foldl_max_perm htimes]
  by_cases hnil : (l.filter fun a => a.assertionType == .verificationOutcome &&
      a.sourceKind == .verification && (r.statusOf a.id).isSome &&
      stringMember a.payload (js "identifier_digest") == some digest).map (·.observedAt) = []
  · rw [if_pos hnil, if_pos (nil_perm.mp (hnil ▸ htimes))]
  · rw [if_neg hnil, if_neg]
    intro hnil'
    exact hnil (perm_nil.mp (hnil' ▸ htimes))

theorem mem_generateProposals {d : DesiredProposal} :
    d ∈ generateProposals host l identifiers r now ↔
      (∃ a ∈ l, r.statusOf a.id = some .contradicted ∧ d = contradictionProposal a) ∨
      (r.trust.verificationStale = true ∧ ∃ s ∈ contactSlots host identifiers,
        ((latestVerification r l s.digest).any fun t =>
          decide (verificationValidityDays * msPerDay < now - t)) = true ∧
        d = contactProposal .renewVerification .verificationStale s) ∨
      (r.trust.singleSourceOnly = true ∧ ∃ s ∈ contactSlots host identifiers,
        (latestVerification r l s.digest).isNone = true ∧
        d = contactProposal .verifyContact .singleSourceOnly s) := by
  have hif : ∀ (c : Bool) (xs : List DesiredProposal),
      d ∈ (if c = true then xs else []) ↔ c = true ∧ d ∈ xs := by
    intro c xs
    cases c <;> simp
  unfold generateProposals
  simp only [mem_append, hif, mem_map, mem_filter, beq_iff_eq, and_assoc,
    eq_comm (a := d), or_assoc]

/-- Views of the same rows under other statuses ask for the same proposals. -/
theorem mem_generateProposals_congr (hp : (l.map (withStatus σ)).Perm l')
    (hi : identifiers.Perm identifiers') (htell : DigestsTell host identifiers)
    (hsame : SameProjection r r') (d : DesiredProposal) :
    d ∈ generateProposals host l' identifiers' r' now ↔
      d ∈ generateProposals host l identifiers r now := by
  have hcontra : (∃ a ∈ l', r'.statusOf a.id = some .contradicted ∧ d = contradictionProposal a) ↔
      ∃ a ∈ l, r.statusOf a.id = some .contradicted ∧ d = contradictionProposal a := by
    constructor
    · rintro ⟨b, hb, hstatus, rfl⟩
      obtain ⟨a, ha, rfl⟩ := mem_map.mp (hp.mem_iff.mpr hb)
      exact ⟨a, ha, (hsame.statusOf a.id).trans hstatus, rfl⟩
    · rintro ⟨a, ha, hstatus, rfl⟩
      exact ⟨withStatus σ a, hp.mem_iff.mp (mem_map_of_mem ha),
        (hsame.statusOf a.id).symm.trans hstatus, rfl⟩
  simp only [mem_generateProposals, hcontra, mem_contactSlots_perm htell hi,
    ← latestVerification_congr hp hsame.statusOf, hsame.trust]

theorem oneForEachKey_generateProposals (hd : DistinctIds l) (htell :
    DigestsTell host identifiers) :
    OneForEachKey (generateProposals host l identifiers r now) := by
  intro d hd' e he hkind hbasis
  have hslot : ∀ {s s' : ContactSlot}, s ∈ contactSlots host identifiers →
      s' ∈ contactSlots host identifiers → BasisRef.identifier s.digest = .identifier s'.digest →
      s = s' := fun hs hs' h => contactSlots_digest htell hs hs' (BasisRef.identifier.inj h)
  rcases mem_generateProposals.mp hd' with ⟨a, ha, -, rfl⟩ | ⟨-, s, hs, -, rfl⟩ | ⟨-, s, hs, -, rfl⟩
  · rcases mem_generateProposals.mp he with ⟨b, hb, -, rfl⟩ | ⟨-, t, -, -, rfl⟩ | ⟨-, t, -, -, rfl⟩
    · rw [hd.eq_of_id ha hb (BasisRef.assertion.inj hbasis)]
    · cases hkind
    · cases hkind
  · rcases mem_generateProposals.mp he with ⟨b, -, -, rfl⟩ | ⟨-, t, ht, -, rfl⟩ | ⟨-, t, -, -, rfl⟩
    · cases hkind
    · rw [hslot hs ht hbasis]
    · cases hkind
  · rcases mem_generateProposals.mp he with ⟨b, -, -, rfl⟩ | ⟨-, t, -, -, rfl⟩ | ⟨-, t, ht, -, rfl⟩
    · cases hkind
    · cases hkind
    · rw [hslot hs ht hbasis]

end Proposals

/-! ## Tenant views -/

section Views

variable {tenant : TenantKey} {cross : Bool} {references references' : List ExternalTalentReference}
  {identifiers identifiers' : List SubjectIdentifier} {σ : Assertion → AssertionStatus}
  {l : List Assertion}

theorem tenantViewAssertions_withStatus :
    tenantViewAssertions tenant cross (l.map (withStatus σ)) =
      (tenantViewAssertions tenant cross l).map (withStatus σ) := by
  rw [tenantViewAssertions, filter_map]
  rfl

theorem tenantViewIdentifiers_perm (hr : references.Perm references')
    (hi : identifiers.Perm identifiers') :
    (tenantViewIdentifiers tenant cross references identifiers).Perm
      (tenantViewIdentifiers tenant cross references' identifiers') := by
  have hactive : (identifiers.filter (·.status == .active)).Perm
      (identifiers'.filter (·.status == .active)) := hi.filter _
  have hrefs : ∀ r : Nat,
    ((references.filter fun r => r.tuple.tenant = tenant).map (·.id)).contains r =
      ((references'.filter fun r => r.tuple.tenant = tenant).map (·.id)).contains r := by
    intro r
    rw [Bool.eq_iff_iff, contains_iff_mem, contains_iff_mem]
    exact ((hr.filter _).map _).mem_iff
  unfold tenantViewIdentifiers
  dsimp only
  simp only [hrefs]
  split
  · exact hactive
  · have hown := hactive.filter fun i : SubjectIdentifier => i.sourceReferenceId.any fun r =>
      ((references'.filter fun r => r.tuple.tenant = tenant).map (·.id)).contains r
    refine hown.append ?_
    have hkeys : ∀ k : IdentifierKey,
        (((identifiers.filter (·.status == .active)).filter fun i =>
          i.sourceReferenceId.any fun r =>
          ((references'.filter fun r => r.tuple.tenant = tenant).map (·.id)).contains r).map
            (·.key)).contains k =
        (((identifiers'.filter (·.status == .active)).filter fun i =>
          i.sourceReferenceId.any fun r =>
          ((references'.filter fun r => r.tuple.tenant = tenant).map (·.id)).contains r).map
            (·.key)).contains k := by
      intro k
      rw [Bool.eq_iff_iff, contains_iff_mem, contains_iff_mem]
      exact (hown.map _).mem_iff
    simp only [hkeys]
    exact hactive.filter _

theorem mem_of_tenantViewIdentifiers {i : SubjectIdentifier}
    (h : i ∈ tenantViewIdentifiers tenant cross references identifiers) : i ∈ identifiers := by
  unfold tenantViewIdentifiers at h
  dsimp only at h
  split at h
  · exact mem_of_mem_filter h
  · rcases mem_append.mp h with h | h
    · exact mem_of_mem_filter (mem_of_mem_filter h)
    · exact mem_of_mem_filter (mem_of_mem_filter h)

theorem activeReferenceTenants_nodup : (activeReferenceTenants references).Nodup :=
  nodup_reverse.mpr (nodup_dedup _)

theorem mem_activeReferenceTenants_perm (hr : references.Perm references') (t : TenantKey) :
    t ∈ activeReferenceTenants references' ↔ t ∈ activeReferenceTenants references := by
  simp only [activeReferenceTenants, mem_reverse, mem_dedup]
  exact (((hr.filter _).map _).mem_iff).symm

end Views

end AramoPlatform.Intelligence
