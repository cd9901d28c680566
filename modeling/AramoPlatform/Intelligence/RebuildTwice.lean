import AramoPlatform.Intelligence.GoldenRuns
import AramoPlatform.Intelligence.RebuildViews

/-!
# A rebuild that is repeated

A rebuild writes its own fixed point: the statuses that it stores are those
that the same rows give again, every contradiction is linked, every fact and
proposal says what is wanted. A second rebuild at the same instant finds
nothing to write.
-/

namespace AramoPlatform.Intelligence

open Js Lib List

/-! ## The statuses that a view writes -/

section Viewed

variable {host : Host} {opts : ProjectionOptions} {l : List Assertion}
  {identifiers : List SubjectIdentifier}

theorem viewedStatus_cases (host : Host) (opts : ProjectionOptions)
    (identifiers : List SubjectIdentifier) (hd : DistinctIds l) {a : Assertion} (ha : a ∈ l) :
    (a.currentStatus.projected = true ∧
        (computeProjection host l identifiers opts).statusOf a.id =
          some (statusInView opts (contradictedIn host opts l) a)) ∨
      (a.currentStatus.projected = false ∧
        (computeProjection host l identifiers opts).statusOf a.id = none) := by
  by_cases hproj : a.currentStatus.projected = true
  · exact .inl ⟨hproj, (statusOf_eq_some hd).mpr ⟨a, mem_filter.mpr ⟨ha, hproj⟩, rfl, rfl⟩⟩
  · refine .inr ⟨Bool.eq_false_iff.mpr hproj, Option.eq_none_iff_forall_ne_some.mpr fun s hs => ?_⟩
    obtain ⟨b, hb, hid, -⟩ := (statusOf_eq_some hd).mp hs
    obtain ⟨hmem, hb⟩ := mem_filter.mp hb
    exact hproj (hd.eq_of_id hmem ha hid ▸ hb)

theorem statusInView_cases (contradicted : List Nat) (a : Assertion) :
    (statusInView opts contradicted a).projected = true ∧
      (statusInView opts contradicted a = .disputed ↔ a.currentStatus = .disputed) := by
  unfold statusInView
  by_cases hdis : a.currentStatus = .disputed
  · simp [hdis, AssertionStatus.retired]
  · rw [if_neg hdis]
    split
    · simp [hdis, AssertionStatus.retired]
    · split <;> simp [hdis, AssertionStatus.retired]

theorem keepsAxis_viewedStatus (hd : DistinctIds l) :
    KeepsAxis (viewedStatus (computeProjection host l identifiers opts)) l := by
  constructor
  · intro a ha
    rw [viewedStatus]
    rcases viewedStatus_cases host opts identifiers hd ha with ⟨hproj, hstatus⟩ | ⟨-, hstatus⟩
    · rw [hstatus, hproj]
      exact (statusInView_cases _ a).1
    · rw [hstatus]
      rfl
  · intro a ha
    rw [viewedStatus]
    rcases viewedStatus_cases host opts identifiers hd ha with ⟨-, hstatus⟩ | ⟨-, hstatus⟩
    · rw [hstatus]
      exact (statusInView_cases _ a).2
    · rw [hstatus]
      rfl

theorem recordable_of_view (hd : DistinctIds l) {a : Assertion} (ha : a ∈ l) :
    Recordable (computeProjection host l identifiers opts) a := by
  intro next hnext
  obtain ⟨b, hb, hid, rfl⟩ := (statusOf_eq_some hd).mp hnext
  obtain rfl := hd.eq_of_id (mem_filter.mp hb).1 ha hid
  unfold statusInView
  split
  next hdis => exact .inl hdis.symm
  · right
    split
    · rfl
    · split <;> rfl

theorem mem_placeClaim {type : AssertionType} {a m : Assertion} {cs : List Cluster} {c : Cluster}
    (hc : c ∈ placeClaim host type a cs) (hm : m ∈ c.members) :
    m = a ∨ ∃ d ∈ cs, m ∈ d.members := by
  induction cs with
  | nil =>
    obtain rfl := mem_singleton.mp hc
    exact .inl (mem_singleton.mp hm)
  | cons d rest ih =>
    rw [placeClaim] at hc
    split at hc
    · rcases mem_cons.mp hc with rfl | hc
      · rcases mem_append.mp hm with hm | hm
        · exact .inr ⟨d, mem_cons_self, hm⟩
        · exact .inl (mem_singleton.mp hm)
      · exact .inr ⟨c, mem_cons_of_mem _ hc, hm⟩
    · rcases mem_cons.mp hc with rfl | hc
      · exact .inr ⟨c, mem_cons_self, hm⟩
      · rcases ih hc with heq | ⟨e, he, hme⟩
        · exact .inl heq
        · exact .inr ⟨e, mem_cons_of_mem _ he, hme⟩

theorem mem_of_rankedClusters {type : AssertionType} {claims : List Assertion} {m : Assertion}
    {c : Cluster} (hc : c ∈ rankedClusters host type claims) (hm : m ∈ c.members) : m ∈ claims := by
  have hfold : ∀ (as : List Assertion) (cs : List Cluster),
      (∃ d ∈ as.foldl (fun out a => placeClaim host type a out) cs, m ∈ d.members) →
        m ∈ as ∨ ∃ d ∈ cs, m ∈ d.members := by
    intro as
    induction as with
    | nil => exact fun cs h => .inr h
    | cons a rest ih =>
      intro cs h
      rcases ih _ h with hrest | ⟨d, hd, hmd⟩
      · exact .inl (mem_cons_of_mem _ hrest)
      · rcases mem_placeClaim hd hmd with rfl | hcs
        · exact .inl mem_cons_self
        · exact .inr hcs
  have hcluster : c ∈ clusterClaims host type claims := (perm_insertionSort _ _).mem_iff.mp hc
  rcases hfold _ [] ⟨c, hcluster, hm⟩ with hmem | ⟨d, hd, -⟩
  · exact (perm_insertionSort _ _).mem_iff.mp hmem
  · cases hd

theorem contradiction_ends {pair : Nat × Nat}
    (h : pair ∈ (computeProjection host l identifiers opts).contradictions) :
    ∃ a ∈ l, a.id = pair.1 := by
  rw [computeProjection_eq] at h
  obtain ⟨losing, hlosing, hpair⟩ := mem_filterMap.mp h
  obtain ⟨w, -, rfl⟩ := Option.map_eq_some_iff.mp hpair
  obtain ⟨g, hg, hlosing⟩ := mem_flatMap.mp hlosing
  obtain ⟨-, hclusters⟩ := mem_rankedGroups.mp hg
  cases hgc : g.2 with
  | nil =>
    rw [hgc] at hlosing
    cases hlosing
  | cons winner losers =>
    rw [hgc, groupContradictions_eq] at hlosing
    obtain ⟨m, hm, hsome⟩ := mem_filterMap.mp hlosing
    obtain ⟨c, hc, hmc⟩ := mem_flatMap.mp hm
    have hid : m.id = losing.1 := by
      split at hsome
      · cases hsome
      · exact congrArg Prod.fst (Option.some.inj hsome)
    refine ⟨m, ?_, hid⟩
    have hmem : m ∈ claimsOf host (projectedOf l) g.1 :=
      mem_of_rankedClusters (by rw [← hclusters, hgc]; exact mem_cons_of_mem _ hc) hmc
    exact mem_of_mem_filter (mem_of_mem_filter (mem_of_mem_filter hmem))

end Viewed

/-! ## The rows that a second rebuild reads -/

section Repeated

variable {env : RebuildEnv} {db : GoldenDb} {reads reads' : RebuildReads} {subjectId now : Nat}

/-- The projection that a rebuild computes. -/
abbrev RebuildEnv.view (env : RebuildEnv) (db : GoldenDb) (reads : RebuildReads)
    (subjectId now : Nat) : ProjectionResult :=
  computeProjection env.host reads.live reads.identifiers
    (db.projectionOptions subjectId env.freshnessDays now reads.live)

/-- The golden model that a rebuild leaves. -/
abbrev RebuildEnv.written (env : RebuildEnv) (db : GoldenDb) (reads : RebuildReads)
    (subjectId now : Nat) : GoldenDb :=
  writeProjection reads.live (db.linksFor (reads.live.map (·.id)))
    (env.view db reads subjectId now) db

section

variable (h : reads.Of db subjectId)

include h

theorem RebuildReads.Of.distinct (hids : DistinctIds db.assertions) :
    DistinctIds reads.assertions :=
  (h.assertions.map fun a : Assertion => a.id).nodup_iff.mpr (DistinctIds.filter hids _)

theorem RebuildReads.Of.live_distinct
    (hids : DistinctIds db.assertions) : DistinctIds reads.live :=
  DistinctIds.filter (h.distinct hids) _

theorem RebuildReads.Of.mem {a : Assertion} (ha : a ∈ reads.live) :
    a ∈ db.assertions :=
  mem_of_mem_filter (h.assertions.mem_iff.mp (mem_of_mem_filter ha))

theorem written_assertions (hids : DistinctIds db.assertions) :
    (env.written db reads subjectId now).assertions =
      db.assertions.map (settleRead (env.view db reads subjectId now) reads.live) := by
  refine writeProjection_assertions (fun a ha r hr hid => ?_) (h.live_distinct hids)
    fun a ha => recordable_of_view (h.live_distinct hids) ha
  exact hids.eq_of_id hr (h.mem ha) hid

/-- A second rebuild reads the rows of the first under the statuses that it wrote. -/
theorem live_again (hids : DistinctIds db.assertions)
    (h' : reads'.Of (env.written db reads subjectId now) subjectId) :
    (reads.live.map (withStatus (viewedStatus (env.view db reads subjectId now)))).Perm
      reads'.live := by
  have hkeep : KeepsAxis (viewedStatus (env.view db reads subjectId now)) reads.live :=
    keepsAxis_viewedStatus (h.live_distinct hids)
  have hread : reads'.assertions.Perm
      (reads.assertions.map (settleRead (env.view db reads subjectId now) reads.live)) := by
    refine h'.assertions.trans ?_
    rw [GoldenDb.assertionsOf, written_assertions h hids, filter_map]
    refine List.Perm.map _ (List.Perm.trans (List.Perm.of_eq ?_) h.assertions.symm)
    exact filter_congr fun r _ => by rw [Function.comp_apply, settleRead_subjectId]
  have hlive := hread.filter fun a => !a.currentStatus.retired
  refine List.Perm.symm (hlive.trans (List.Perm.of_eq ?_))
  rw [filter_map]
  have hretired : ∀ a ∈ reads.assertions,
      (settleRead (env.view db reads subjectId now) reads.live a).currentStatus.retired =
        a.currentStatus.retired := by
    intro a ha
    unfold settleRead
    split
    next hmem =>
      obtain ⟨b, hb, hid⟩ := mem_map.mp hmem
      obtain rfl := (h.distinct hids).eq_of_id (mem_of_mem_filter hb) ha hid
      have hproj := hkeep.projected b hb
      rw [AssertionStatus.projected_eq, AssertionStatus.projected_eq] at hproj
      exact Bool.not_inj hproj
    · rfl
  have hfilter : reads.assertions.filter ((fun a => !a.currentStatus.retired) ∘
      settleRead (env.view db reads subjectId now) reads.live) = reads.live :=
    filter_congr fun a ha => by rw [Function.comp_apply, hretired a ha]
  rw [hfilter]
  refine map_congr_left fun a ha => ?_
  rw [settleRead, if_pos (mem_map_of_mem ha)]

end

theorem mem_reconciledPairs_grow {old new : List AssertionLink} {ids ids' : List Nat}
    (hg : LinksGrow old new) (hids : ∀ id, id ∈ ids ↔ id ∈ ids') (pair : Nat × Nat) :
    pair ∈ reconciledPairs (old.filter fun l => ids.contains l.fromAssertionId ||
        ids.contains l.toAssertionId) ↔
      pair ∈ reconciledPairs (new.filter fun l => ids'.contains l.fromAssertionId ||
        ids'.contains l.toAssertionId) := by
  have hcontains : ∀ id, ids.contains id = ids'.contains id := by
    intro id
    rw [Bool.eq_iff_iff, contains_iff_mem, contains_iff_mem, hids]
  simp only [reconciledPairs, hcontains, mem_flatMap, mem_filter, beq_iff_eq]
  constructor
  · rintro ⟨l, ⟨⟨hl, hends⟩, htype⟩, hpair⟩
    exact ⟨l, ⟨⟨hg.kept l hl, hends⟩, htype⟩, hpair⟩
  · rintro ⟨l, ⟨⟨hl, hends⟩, htype⟩, hpair⟩
    rcases hg.fresh l hl with hold | hcontra
    · exact ⟨l, ⟨⟨hold, hends⟩, htype⟩, hpair⟩
    · rw [htype] at hcontra
      cases hcontra

variable {l l' : List Assertion}

theorem sameOptions_of_grow {db' : GoldenDb} {freshness : ℚ}
    (hout : SameOutside db db') (hgrow : LinksGrow db.assertionLinks db'.assertionLinks)
    (hread : ∀ id, id ∈ l.map (·.id) ↔ id ∈ l'.map (·.id)) :
    SameOptions (db.projectionOptions subjectId freshness now l)
      (db'.projectionOptions subjectId freshness now l') := by
  refine ⟨rfl, rfl, fun id => ?_, mem_reconciledPairs_grow hgrow hread⟩
  simp only [GoldenDb.projectionOptions, GoldenDb.artifactSupportedIds, GoldenDb.supportsOf,
    GoldenDb.artifactsOf, hout.artifacts, hout.supports]

section

variable (h : reads.Of db subjectId)

include h

theorem ids_again (hids : DistinctIds db.assertions)
    (h' : reads'.Of (env.written db reads subjectId now) subjectId) (id : Nat) :
    id ∈ reads.live.map (·.id) ↔ id ∈ reads'.live.map (·.id) := by
  have hsame : (reads.live.map (withStatus (viewedStatus (env.view db reads subjectId now)))).map
      (fun a : Assertion => a.id) = reads.live.map fun a : Assertion => a.id := by
    rw [map_map]
    rfl
  rw [← hsame]
  exact ((live_again h hids h').map fun a : Assertion => a.id).mem_iff

theorem options_again (hids : DistinctIds db.assertions)
    (h' : reads'.Of (env.written db reads subjectId now) subjectId) :
    SameOptions (db.projectionOptions subjectId env.freshnessDays now reads.live)
      ((env.written db reads subjectId now).projectionOptions subjectId env.freshnessDays now
        reads'.live) :=
  sameOptions_of_grow writeProjection_outside writeProjection_links (ids_again h hids h')

theorem identifiers_again
    (h' : reads'.Of (env.written db reads subjectId now) subjectId) :
    reads.identifiers.Perm reads'.identifiers := by
  have hout : SameOutside db (env.written db reads subjectId now) := writeProjection_outside
  have hread := h'.identifiers
  rw [GoldenDb.identifiersOf, hout.identifiers] at hread
  exact h.identifiers.trans hread.symm

theorem references_again
    (h' : reads'.Of (env.written db reads subjectId now) subjectId) :
    reads.references.Perm reads'.references := by
  have hout : SameOutside db (env.written db reads subjectId now) := writeProjection_outside
  have hread := h'.references
  rw [GoldenDb.referencesOf, hout.references] at hread
  exact h.references.trans hread.symm

end

/-! ## What it computes and wants -/

theorem storedKeysTell_subset {host : Host} (h : StoredKeysTell host l)
    (hsub : ∀ a ∈ l', a ∈ l) : StoredKeysTell host l' :=
  fun a ha b hb => h a (hsub a ha) b (hsub b hb)

/-- Rows in another order and under the statuses of a view project the same. -/
theorem sameProjection_again {host : Host}
    {identifiers identifiers' : List SubjectIdentifier} {opts opts' : ProjectionOptions}
    {σ : Assertion → AssertionStatus} (hd : DistinctIds l) (hkeep : KeepsAxis σ l)
    (hp : (l.map (withStatus σ)).Perm l') (hi : identifiers.Perm identifiers')
    (hopts : SameOptions opts opts') (htell : StoredKeysTell host (projectedOf l)) :
    SameProjection (computeProjection host l identifiers opts)
      (computeProjection host l' identifiers' opts') := by
  rw [computeProjection_options hopts, ← computeProjection_withStatus hkeep]
  refine computeProjection_perm hp ?_ hi ?_
  · rw [DistinctIds, map_map]
    exact hd
  · rw [projectedOf_withStatus hkeep]
    intro a ha b hb
    obtain ⟨a₀, ha₀, rfl⟩ := mem_map.mp ha
    obtain ⟨b₀, hb₀, rfl⟩ := mem_map.mp hb
    exact htell a₀ ha₀ b₀ hb₀

theorem KeepsAxis.subset {σ : Assertion → AssertionStatus}
    (h : KeepsAxis σ l) (hsub : ∀ a ∈ l', a ∈ l) : KeepsAxis σ l' :=
  ⟨fun a ha => h.projected a (hsub a ha), fun a ha => h.disputed a (hsub a ha)⟩

/-- Rows that were read, and what is asked of them: distinct ids, keys that
tell facts apart, and digests that tell contacts apart. -/
structure Tellable (env : RebuildEnv) (db : GoldenDb) (subjectId : Nat) : Prop where
  ids : DistinctIds db.assertions
  keys : StoredKeysTell env.host (projectedOf (db.assertionsOf subjectId))
  digests : DigestsTell env.host (db.identifiersOf subjectId)

section

variable (ht : Tellable env db subjectId)

include ht

section

variable (h : reads.Of db subjectId)

include h

theorem Tellable.live :
    StoredKeysTell env.host (projectedOf reads.live) := by
  refine storedKeysTell_subset ht.keys fun a ha => ?_
  obtain ⟨hlive, hproj⟩ := mem_filter.mp ha
  exact mem_filter.mpr ⟨h.assertions.mem_iff.mp (mem_of_mem_filter hlive), hproj⟩

theorem Tellable.contacts :
    DigestsTell env.host reads.identifiers :=
  ht.digests.subset fun _ hi => h.identifiers.mem_iff.mp hi

theorem view_again
    (h' : reads'.Of (env.written db reads subjectId now) subjectId) :
    SameProjection (env.view db reads subjectId now)
      (env.view (env.written db reads subjectId now) reads' subjectId now) :=
  sameProjection_again (h.live_distinct ht.ids) (keepsAxis_viewedStatus (h.live_distinct ht.ids))
    (live_again h ht.ids h') (identifiers_again h h') (options_again h ht.ids h') (ht.live h)

theorem desired_again
    (h' : reads'.Of (env.written db reads subjectId now) subjectId) (tenant : TenantKey)
    (d : DesiredProposal) :
    d ∈ desiredFor env reads' ((env.written db reads subjectId now).projectionOptions subjectId
        env.freshnessDays now reads'.live)
        (env.view (env.written db reads subjectId now) reads' subjectId now) tenant ↔
      d ∈ desiredFor env reads (db.projectionOptions subjectId env.freshnessDays now reads.live)
        (env.view db reads subjectId now) tenant := by
  have hd := h.live_distinct ht.ids
  have hkeep : KeepsAxis (viewedStatus (env.view db reads subjectId now)) reads.live :=
    keepsAxis_viewedStatus hd
  have hva : ((tenantViewAssertions tenant env.crossTenant reads.live).map
      (withStatus (viewedStatus (env.view db reads subjectId now)))).Perm
      (tenantViewAssertions tenant env.crossTenant reads'.live) := by
    rw [← tenantViewAssertions_withStatus]
    exact (live_again h ht.ids h').filter _
  have hvi : (tenantViewIdentifiers tenant env.crossTenant reads.references reads.identifiers).Perm
      (tenantViewIdentifiers tenant env.crossTenant reads'.references reads'.identifiers) :=
    tenantViewIdentifiers_perm (references_again h h') (identifiers_again h h')
  have hview : ∀ a ∈ tenantViewAssertions tenant env.crossTenant reads.live, a ∈ reads.live :=
    fun a ha => mem_of_mem_filter ha
  have hsame : SameProjection
      (if env.crossTenant then env.view db reads subjectId now
      else computeProjection env.host (tenantViewAssertions tenant env.crossTenant reads.live)
        (tenantViewIdentifiers tenant env.crossTenant reads.references reads.identifiers)
        (db.projectionOptions subjectId env.freshnessDays now reads.live))
      (if env.crossTenant then env.view (env.written db reads subjectId now) reads' subjectId now
      else computeProjection env.host (tenantViewAssertions tenant env.crossTenant reads'.live)
        (tenantViewIdentifiers tenant env.crossTenant reads'.references reads'.identifiers)
        ((env.written db reads subjectId now).projectionOptions subjectId env.freshnessDays now
          reads'.live)) := by
    split
    · exact view_again ht h h'
    · refine sameProjection_again (DistinctIds.filter hd _) (hkeep.subset hview) hva hvi
        (options_again h ht.ids h') ?_
      refine storedKeysTell_subset (ht.live h) fun a ha => ?_
      obtain ⟨hmem, hproj⟩ := mem_filter.mp ha
      exact mem_filter.mpr ⟨hview a hmem, hproj⟩
  exact mem_generateProposals_congr hva hvi
    ((ht.contacts h).subset fun _ hi => mem_of_tenantViewIdentifiers hi) hsame d

theorem oneForEachKey_desiredFor
    (opts : ProjectionOptions) (global : ProjectionResult) (tenant : TenantKey) :
    OneForEachKey (desiredFor env reads opts global tenant) :=
  oneForEachKey_generateProposals (DistinctIds.filter (h.live_distinct ht.ids) _)
    ((ht.contacts h).subset fun _ hi => mem_of_tenantViewIdentifiers hi)

end

end

/-! ## The second rebuild -/

section

variable (ht : Tellable env db subjectId)

include ht

section

variable (h : reads.Of db subjectId)

include h

theorem written_again
    (h' : reads'.Of (env.written db reads subjectId now) subjectId) :
    env.written (env.written db reads subjectId now) reads' subjectId now =
      env.written db reads subjectId now := by
  have hd := h.live_distinct ht.ids
  have hsame := view_again ht h h'
  refine writeProjection_eq_self (fun b hb => ?_) fun pair hpair => ?_
  · -- every row that is read carries the status of the view
    obtain ⟨a, ha, rfl⟩ := mem_map.mp ((live_again h ht.ids h').mem_iff.mpr hb)
    rw [← hsame.statusOf, withStatus_currentStatus, viewedStatus, withStatus_id]
    rcases viewedStatus_cases env.host
      (db.projectionOptions subjectId env.freshnessDays now reads.live) reads.identifiers hd ha with
      ⟨-, hstatus⟩ | ⟨hproj, -⟩
    · rw [hstatus]
      rfl
    · have hlive := (mem_filter.mp ha).2
      rw [AssertionStatus.projected_eq] at hproj
      rw [hproj] at hlive
      cases hlive
  · -- every contradiction was linked, and the link is read
    have hold := (hsame.contradictions pair).mpr hpair
    obtain ⟨l, hl, hpairs⟩ : ∃ l ∈ (env.written db reads subjectId now).assertionLinks,
        LinksPair l pair := writeProjection_linked (fun l hl => mem_of_mem_filter hl) hold
    obtain ⟨a, ha, hid⟩ := contradiction_ends hpair
    have hmem : (reads'.live.map (·.id)).contains pair.1 = true :=
      contains_iff_mem.mpr (hid ▸ mem_map_of_mem ha)
    refine ⟨l, mem_filter.mpr ⟨hl, ?_⟩, hpairs⟩
    rcases hpairs.2 with heq | heq
    · have hfrom : l.fromAssertionId = pair.1 := congrArg Prod.fst heq
      rw [hfrom, hmem, Bool.true_or]
    · have hto : l.toAssertionId = pair.1 := congrArg Prod.fst heq
      rw [hto, hmem, Bool.or_true]

theorem fact_key_injective :
    ∀ f ∈ (env.view db reads subjectId now).facts, ∀ g ∈ (env.view db reads subjectId now).facts,
      (factRow subjectId f).key = (factRow subjectId g).key → f = g := by
  intro f hf g hg hk
  rw [RebuildEnv.view, computeProjection_eq, (perm_insertionSort _ _).mem_iff] at hf hg
  have htype : f.factType = g.factType := congrArg FactKey.factType hk
  have hkey : f.factKey = g.factKey := congrArg FactKey.factKey hk
  exact fact_eq_of_key (ht.live h) hf hg htype hkey

theorem proposals_again
    (h' : reads'.Of (env.written db reads subjectId now) subjectId)
    (rows : List VerificationProposal) :
    applyProposals env (env.written db reads subjectId now) reads'
        ((env.written db reads subjectId now).projectionOptions subjectId env.freshnessDays now
          reads'.live)
        (env.view (env.written db reads subjectId now) reads' subjectId now) subjectId
        (applyProposals env db reads
          (db.projectionOptions subjectId env.freshnessDays now reads.live)
          (env.view db reads subjectId now) subjectId rows) =
      applyProposals env db reads
        (db.projectionOptions subjectId env.freshnessDays now reads.live)
        (env.view db reads subjectId now) subjectId rows := by
  have hout : SameOutside db (env.written db reads subjectId now) := writeProjection_outside
  have hentitled : ∀ t, isEntitled (env.written db reads subjectId now) t = isEntitled db t := by
    intro t
    rw [isEntitled, hout.entitlements, isEntitled]
  refine syncTenants_of_settled fun t htenant => ?_
  obtain ⟨hmem, hent⟩ := mem_filter.mp htenant
  rw [hentitled] at hent
  have hfirst : t ∈ (activeReferenceTenants reads.references).filter (isEntitled db) :=
    mem_filter.mpr ⟨(mem_activeReferenceTenants_perm (references_again h h') t).mp hmem, hent⟩
  have hsettled : ProposalsSettled t subjectId
      (desiredFor env reads (db.projectionOptions subjectId env.freshnessDays now reads.live)
        (env.view db reads subjectId now) t)
      (applyProposals env db reads
        (db.projectionOptions subjectId env.freshnessDays now reads.live)
        (env.view db reads subjectId now) subjectId rows) :=
    syncTenants_settled (activeReferenceTenants_nodup.filter _)
      (fun u _ => oneForEachKey_desiredFor ht h _ _ u) hfirst
  exact hsettled.congr (desired_again ht h h' t)

end

end

end Repeated

/-- **A second rebuild at the same instant changes nothing.** -/
theorem rebuildStored_again {env : RebuildEnv} {db db' : ProjectionDb} {reads reads' : RebuildReads}
    {subjectId now : Nat} (ht : Tellable env db.golden subjectId)
    (h : reads.Of db.golden subjectId)
    (hfirst : rebuildStored env db reads subjectId now = .ok db')
    (h' : reads'.Of db'.golden subjectId) :
    rebuildStored env db' reads' subjectId now = .ok db' := by
  unfold rebuildStored at hfirst
  obtain ⟨subject, hsurvives, hfirst⟩ := bind_eq_ok.mp hfirst
  split at hfirst
  next hgone =>
    -- a merged-away subject had its facts removed
    obtain rfl := Except.ok.inj hfirst
    unfold rebuildStored
    rw [hsurvives]
    show (if subject.id ≠ subjectId then _ else _) = _
    rw [if_pos hgone, filter_filter]
    simp only [Bool.and_self]
  next hlive =>
    obtain rfl := Except.ok.inj hfirst
    have hout : SameOutside db.golden (env.written db.golden reads subjectId now) :=
      writeProjection_outside
    have hsame := view_again ht h h'
    have hstored : FactsStored subjectId (env.view db.golden reads subjectId now).facts
        (applyFacts subjectId (env.view db.golden reads subjectId now).facts db.facts).1 :=
      applyFacts_stored (fact_key_injective ht h)
    have hfacts := applyFacts_of_stored hstored
    have htrust := applyTrust_again subjectId now (env.view db.golden reads subjectId now).trust
      db.trust
    have hsurvives' : survivingSubject (env.written db.golden reads subjectId now) subjectId =
        .ok subject := (followMerges_congr hout.subjects _ _).trans hsurvives
    unfold rebuildStored
    rw [hsurvives']
    show (if subject.id ≠ subjectId then _ else _) = _
    rw [if_neg hlive]
    dsimp only
    rw [← hsame.facts, ← hsame.trust, hfacts, htrust, proposals_again ht h h']
    have hnone : changedTypes [] false = [] := rfl
    rw [hnone, if_pos rfl, Except.ok.injEq, ProjectionDb.mk.injEq]
    exact ⟨written_again ht h h', rfl, rfl, rfl, rfl⟩

/-- **Order and repetition.** Rows in another order give the same statuses,
partners, trust and contradictions and the same facts, in the same order where
their stored keys tell them apart; and a rebuild that is repeated at its own
instant changes nothing. -/
theorem projection_settles :
    (∀ (host : Host) (opts : ProjectionOptions) (l l' : List Assertion)
        (identifiers identifiers' : List SubjectIdentifier),
      l.Perm l' → identifiers.Perm identifiers' → DistinctIds l →
      SameView (computeProjection host l identifiers opts)
          (computeProjection host l' identifiers' opts) ∧
        (computeProjection host l identifiers opts).facts.Perm
          (computeProjection host l' identifiers' opts).facts ∧
        (StoredKeysTell host (projectedOf l) →
          (computeProjection host l identifiers opts).facts =
            (computeProjection host l' identifiers' opts).facts)) ∧
    ∀ (env : RebuildEnv) (db db' : ProjectionDb) (reads reads' : RebuildReads)
        (subjectId now : Nat),
      Tellable env db.golden subjectId → reads.Of db.golden subjectId →
      rebuildStored env db reads subjectId now = .ok db' → reads'.Of db'.golden subjectId →
      rebuildStored env db' reads' subjectId now = .ok db' := by
  constructor
  · intro host opts l l' identifiers identifiers' hp hi hd
    refine ⟨sameView_perm hp hd hi, facts_perm hp hd hi, fun htell => ?_⟩
    exact (computeProjection_perm hp hd hi htell).facts
  · intro env db db' reads reads' subjectId now ht h hfirst h'
    exact rebuildStored_again ht h hfirst h'

/-! ## A small subject -/

/-- A claim that a tenant declares, of a reference of its own. -/
def claimOf (tenant : String) (id : Nat) (type : AssertionType) (member : String)
    (value : JsString) : Assertion where
  id := id
  subjectId := 1
  assertionType := type
  admissionClass := .a
  payload := [(js member, .str value)]
  sourceReferenceId := some id
  sourceSystemId := js "ATS"
  sourceTenantId := some (js tenant)
  sourceKind := .recruiter
  sourceEventId := js "e"
  verificationStatus := .declared
  observedAt := 0
  validFrom := none
  validTo := none
  aiDerived := false
  contentHash := js "h"
  sourceDocumentHash := none
  currentStatus := .valid

def plainOptions : ProjectionOptions := ⟨0, 30, [], []⟩

/-- Two profiles whose addresses agree before a NUL. -/
def nulProfiles : List Assertion :=
  [claimOf "T1" 1 .publicProfileUrl "url" (js "a" ++ [0] ++ js "b"),
    claimOf "T1" 2 .publicProfileUrl "url" (js "a" ++ [0] ++ js "c")]

/-- Behind a NUL the order of the rows shows in the order of the facts. -/
theorem facts_of_nul_keys :
    ¬ ∀ (host : Host) (opts : ProjectionOptions) (l l' : List Assertion), l.Perm l' →
      DistinctIds l →
      (computeProjection host l [] opts).facts = (computeProjection host l' [] opts).facts := by
  intro h
  have hswap : nulProfiles.Perm nulProfiles.reverse := (reverse_perm _).symm
  have hd : DistinctIds nulProfiles := by
    rw [DistinctIds]
    decide
  have hids := congrArg (List.map (·.supportingAssertionIds))
    (h plainHost plainOptions _ _ hswap hd)
  revert hids
  decide

/-- A contact of the subject. -/
def contactOf (id : Nat) (type : IdentifierType) (value : String) : SubjectIdentifier where
  id := id
  subjectId := 1
  key := ⟨type, js value⟩
  jurisdiction := none
  identifierClass := none
  verificationStatus := .unverified
  verificationMethod := none
  verificationSource := none
  verifiedAt := none
  status := .active
  validFrom := 0
  validTo := none
  isPrimary := false
  sourceReferenceId := some 1

/-- Two employers that contradict each other, and two contacts. -/
def employedTwice : ProjectionDb where
  golden := { GoldenDb.empty with
    nextId := 5
    subjects := [⟨1, .active, .active, none⟩]
    references := [⟨1, ann, 1, .active, none, ⟨⟨none, none, none⟩, [], []⟩⟩,
      ⟨2, ⟨js "ATS", js "T2", js "ann"⟩, 1, .active, none, ⟨⟨none, none, none⟩, [], []⟩⟩]
    identifiers := [contactOf 1 .email "ada@example.com", contactOf 2 .phone "+15550100"]
    assertions := [claimOf "T1" 1 .currentEmployer "name" (js "acme"),
      claimOf "T2" 2 .currentEmployer "name" (js "globex")]
    entitlements := [⟨ann.tenant, true⟩] }
  facts := []
  trust := []
  proposals := []
  outbox := []

/-- A host with the digests of the two contacts. -/
def contactHost : Host :=
  { plainHost with
    sha256Hex := fun t =>
      if t = js "EMAIL:ada@example.com" then
        js "5ebad5df27d5e7208dc4149177b6832abb63f9085adf22cfea6f19fee3e2a278"
      else if t = js "PHONE:+15550100" then
        js "571d721236cf8f3861dbd2f91019d64789d11dcea25117a506421ff5651e2aea"
      else [] }

/-- The rows of a subject in the order in which they are stored. -/
def GoldenDb.readsOf (db : GoldenDb) (subjectId : Nat) : RebuildReads :=
  ⟨db.assertionsOf subjectId, db.identifiersOf subjectId, db.referencesOf subjectId⟩

theorem readsOf_of (db : GoldenDb) (subjectId : Nat) : (db.readsOf subjectId).Of db subjectId :=
  ⟨.refl _, .refl _, .refl _⟩

theorem projection_settles_employedTwice :
    SameProjection
        (computeProjection contactHost (employedTwice.golden.assertionsOf 1)
          (employedTwice.golden.identifiersOf 1) plainOptions)
        (computeProjection contactHost (employedTwice.golden.assertionsOf 1).reverse
          (employedTwice.golden.identifiersOf 1).reverse plainOptions) ∧
      ∃ db', rebuildStored ⟨contactHost, true, 30⟩ employedTwice
        (employedTwice.golden.readsOf 1) 1 0 =
          .ok db' ∧ db'.golden.assertionLinks.length = 1 ∧ db'.proposals.length = 2 ∧
        rebuildStored ⟨contactHost, true, 30⟩ db' (db'.golden.readsOf 1) 1 0 = .ok db' := by
  have hd : DistinctIds employedTwice.golden.assertions := by
    rw [DistinctIds]
    decide
  have hkeys : StoredKeysTell contactHost (projectedOf (employedTwice.golden.assertionsOf 1)) :=
    storedKeysTell_of_no_nul (by decide)
  have hdigests : DigestsTell contactHost (employedTwice.golden.identifiersOf 1) := by
    rw [DigestsTell]
    decide
  constructor
  · obtain ⟨hview, -, hfacts⟩ := projection_settles.1 contactHost plainOptions _ _ _ _
      (reverse_perm (employedTwice.golden.assertionsOf 1)).symm
      (reverse_perm (employedTwice.golden.identifiersOf 1)).symm (hd.filter _)
    exact ⟨hview, hfacts hkeys⟩
  · refine ⟨_, rfl, by decide, by decide, ?_⟩
    exact projection_settles.2 ⟨contactHost, true, 30⟩ employedTwice _ _ _ 1 0 ⟨hd, hkeys, hdigests⟩
      (readsOf_of _ 1) rfl (readsOf_of _ 1)

end AramoPlatform.Intelligence
