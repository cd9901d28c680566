import AramoPlatform.Placement.Remedies

/-!
# The versions of guarantee terms

A revision closes the open version, which the trigger lets happen once, and
puts its successor behind it; the overlap constraint keeps everything else
out. So the versions of a requisition follow one another without a gap, and a
date before the day of a revision stays where it was.
-/

namespace AramoPlatform.Placement

open Lib PlacementTx List

/-! ## Versions one after another -/

/-- Each version names the one that it follows. -/
def Superseding : Option Nat → List GuaranteeTermVersion → Prop
  | _, [] => True
  | previous, v :: rest => v.supersedesVersionId = previous ∧ Superseding (some v.id) rest

theorem superseding_append {previous : Option Nat} {versions : List GuaranteeTermVersion}
    {v successor : GuaranteeTermVersion} :
    Superseding previous (versions ++ [v]) → successor.supersedesVersionId = some v.id →
      Superseding previous (versions ++ [v, successor]) := by
  intro h hnames
  induction versions generalizing previous with
  | nil => exact ⟨h.1, hnames, trivial⟩
  | cons x rest ih => exact ⟨h.1, ih h.2⟩

theorem superseding_endAt {previous : Option Nat} {versions : List GuaranteeTermVersion}
    {v : GuaranteeTermVersion} (effectiveTo : Option Nat) :
    Superseding previous (versions ++ [v.endAt effectiveTo]) ↔
      Superseding previous (versions ++ [v]) := by
  induction versions generalizing previous with
  | nil => exact Iff.rfl
  | cons x rest ih => exact and_congr_right fun _ => ih

/-- The versions of a requisition: they fill the time from the first one on,
and each follows on the one before. -/
structure TermsTiled (versions : List GuaranteeTermVersion) : Prop where
  tiles : ∀ first, versions.head? = some first →
    Tiles first.effectiveFrom none (versions.map (·.window))
  linked : Superseding none versions

theorem termsTiled_nil : TermsTiled [] where
  tiles first hfirst := by cases hfirst
  linked := trivial

namespace TermsTiled

variable {versions : List GuaranteeTermVersion}

theorem exists_last (h : TermsTiled versions) (hsome : versions ≠ []) :
    ∃ init v, versions = init ++ [v] ∧ v.effectiveTo = none ∧
      ∀ x ∈ init, ∃ e, x.effectiveTo = some e := by
  obtain ⟨first, hfirst⟩ := Option.isSome_iff_exists.mp (isSome_head?.mpr hsome)
  obtain ⟨ws, p, hws, hinit⟩ := (h.tiles first hfirst).exists_last
  obtain ⟨init, last, rfl, rfl, hlast⟩ := map_eq_append_iff.mp hws
  obtain ⟨v, rfl, hv⟩ := map_eq_singleton_iff.mp hlast
  refine ⟨init, v, rfl, congrArg Window.stop hv, fun x hx => ?_⟩
  exact hinit.stop_of_mem x.window (mem_map_of_mem hx)

theorem eq_last (h : TermsTiled versions) {v : GuaranteeTermVersion} (hv : v ∈ versions)
    (hopen : v.effectiveTo = none) : ∃ init, versions = init ++ [v] := by
  obtain ⟨init, last, rfl, -, hclosed⟩ := h.exists_last (ne_nil_of_mem hv)
  rcases (mem_append.mp hv).imp_right mem_singleton.mp with hmem | rfl
  · obtain ⟨e, he⟩ := hclosed v hmem
    rw [hopen] at he
    cases he
  · exact ⟨init, rfl⟩

theorem first (row : GuaranteeTermVersion) (hopen : row.effectiveTo = none)
    (hfirst : row.supersedesVersionId = none) : TermsTiled [row] where
  tiles x hx := by
    obtain rfl := Option.some.inj hx
    have hwindow : row.window = ⟨row.effectiveFrom, none⟩ := by
      rw [GuaranteeTermVersion.window, hopen]
    rw [map_singleton, hwindow]
    exact .last _
  linked := ⟨hfirst, trivial⟩

/-- **A revision** of the open version. -/
theorem revise {init : List GuaranteeTermVersion} {v row : GuaranteeTermVersion}
    (h : TermsTiled (init ++ [v])) (hopen : v.effectiveTo = none)
    (hafter : v.effectiveFrom < row.effectiveFrom) (hrow : row.effectiveTo = none)
    (hnames : row.supersedesVersionId = some v.id) :
    TermsTiled (init ++ [v.endAt (some row.effectiveFrom), row]) where
  tiles first hfirst := by
    have hstart : Tiles first.effectiveFrom none ((init ++ [v]).map (·.window)) := by
      cases init with
      | nil =>
        obtain rfl := Option.some.inj hfirst
        exact h.tiles v rfl
      | cons x rest => exact h.tiles first hfirst
    have hv : v.window = ⟨v.effectiveFrom, none⟩ := by rw [GuaranteeTermVersion.window, hopen]
    have hnew : row.window = ⟨row.effectiveFrom, none⟩ := by rw [GuaranteeTermVersion.window, hrow]
    rw [map_append, map_singleton, hv] at hstart
    rw [map_append, map_cons, map_singleton, hnew]
    exact hstart.extend hafter
  linked := by
    have hclosed := (superseding_endAt (some row.effectiveFrom)).mpr h.linked
    exact superseding_append hclosed hnames

end TermsTiled

/-! ## Resolution -/

/-- What `resolveEffectiveTermRow` finds in these tables. -/
def resolve (t r asOf : Nat) (d : PlacementDb) :
    Except PlacementError (Option GuaranteeTermVersion) :=
  (Tx.alone (σ := placementStore) .violation (resolveEffectiveTermRow t r asOf) ([], d)).map (·.1)

namespace TermsTiled

variable {versions : List GuaranteeTermVersion}

theorem countP_covers (h : TermsTiled versions) {first : GuaranteeTermVersion}
    (hfirst : versions.head? = some first) (asOf : Nat) :
    versions.countP (·.window.covers asOf) = if first.effectiveFrom ≤ asOf then 1 else 0 := by
  have hcount := (h.tiles first hfirst).countP_covers asOf
  rw [countP_map] at hcount
  simpa [Window.covers, Function.comp_def] using hcount

theorem filter_covers (h : TermsTiled versions) (asOf : Nat) :
    versions.filter (·.window.covers asOf) = (versions.find? (·.window.covers asOf)).toList := by
  have hle : (versions.filter (·.window.covers asOf)).length ≤ 1 := by
    rw [← countP_eq_length_filter]
    cases hfirst : versions.head? with
    | none =>
      obtain rfl := head?_eq_none_iff.mp hfirst
      exact Nat.zero_le 1
    | some first =>
      rw [h.countP_covers hfirst]
      split <;> omega
  rw [← head?_filter]
  generalize versions.filter (·.window.covers asOf) = rows at hle
  cases rows with
  | nil => rfl
  | cons v rest =>
    cases rest with
    | nil => rfl
    | cons x more => simp at hle

theorem countP_open (h : TermsTiled versions) (hsome : versions ≠ []) :
    versions.countP (·.effectiveTo.isNone) = 1 := by
  obtain ⟨init, v, rfl, hopen, hclosed⟩ := h.exists_last hsome
  have hnone : init.countP (·.effectiveTo.isNone) = 0 := by
    rw [countP_eq_zero]
    intro x hx
    obtain ⟨e, he⟩ := hclosed x hx
    simp [he]
  rw [countP_append, hnone, countP_singleton, hopen]
  rfl

end TermsTiled

variable {d : PlacementDb}

theorem resolve_eq {t r : Nat} (h : TermsTiled (d.termsOf t r)) (asOf : Nat) :
    resolve t r asOf d = .ok ((d.termsOf t r).find? (·.window.covers asOf)) := by
  have hanswer : d.answer (.effectiveTerms t r asOf) =
      ((d.termsOf t r).find? (·.window.covers asOf)).toList := by
    simp only [PlacementDb.answer, h.filter_covers]
    cases (d.termsOf t r).find? (·.window.covers asOf) <;> rfl
  have hprogram : resolve t r asOf d = (Tx.alone (σ := placementStore) .violation
      ((PlacementTx.require (decide ((d.answer (.effectiveTerms t r asOf)).length ≤ 1))
        .termsAmbiguous).bind fun _ => .pure (d.answer (.effectiveTerms t r asOf)).head?)
      ([], d)).map (·.1) := rfl
  rw [hprogram, hanswer]
  cases (d.termsOf t r).find? (·.window.covers asOf) <;> rfl

/-- What resolution finds among the versions of a requisition. -/
structure ResolvesOnce (d : PlacementDb) (t r : Nat) : Prop where
  tiled : TermsTiled (d.termsOf t r)
  oneOpen : d.termsOf t r ≠ [] → (d.termsOf t r).countP (·.effectiveTo.isNone) = 1
  before : ∀ asOf, (∀ first, (d.termsOf t r).head? = some first → asOf < first.effectiveFrom) →
    resolve t r asOf d = .ok none
  since : ∀ first asOf, (d.termsOf t r).head? = some first → first.effectiveFrom ≤ asOf →
    ∃ v ∈ d.termsOf t r, resolve t r asOf d = .ok (some v) ∧
      ∀ x ∈ d.termsOf t r, x.window.covers asOf = true → x = v

theorem TermsTiled.resolvesOnce {t r : Nat} (h : TermsTiled (d.termsOf t r)) :
    ResolvesOnce d t r where
  tiled := h
  oneOpen := h.countP_open
  before asOf hbefore := by
    rw [resolve_eq h, find?_eq_none.mpr]
    intro v hv hcovers
    obtain ⟨first, hfirst⟩ :=
      Option.isSome_iff_exists.mp (isSome_head?.mpr (ne_nil_of_mem hv))
    have hcount := h.countP_covers hfirst asOf
    rw [if_neg (Nat.not_le.mpr (hbefore first hfirst)), countP_eq_zero] at hcount
    exact hcount v hv hcovers
  since first asOf hfirst hle := by
    have hcount := h.countP_covers hfirst asOf
    rw [if_pos hle, countP_eq_length_filter, h.filter_covers] at hcount
    cases hfound : (d.termsOf t r).find? (·.window.covers asOf) with
    | none =>
      rw [hfound] at hcount
      cases hcount
    | some v =>
      refine ⟨v, mem_of_find?_eq_some hfound, by rw [resolve_eq h, hfound],
        fun x hx hcovers => ?_⟩
      have hmem : x ∈ (d.termsOf t r).filter (·.window.covers asOf) :=
        mem_filter.mpr ⟨hx, hcovers⟩
      rw [h.filter_covers, hfound] at hmem
      exact mem_singleton.mp hmem

theorem find?_revise {init : List GuaranteeTermVersion} {v row : GuaranteeTermVersion}
    (hopen : v.effectiveTo = none) {asOf : Nat} (hpast : asOf < row.effectiveFrom) :
    ((init ++ [v.endAt (some row.effectiveFrom), row]).find? (·.window.covers asOf)).map (·.fixed) =
      ((init ++ [v]).find? (·.window.covers asOf)).map (·.fixed) := by
  have hnew : row.window.covers asOf = false := by
    simp [GuaranteeTermVersion.window, Window.covers, Nat.not_le.mpr hpast]
  have hsame : (v.endAt (some row.effectiveFrom)).window.covers asOf = v.window.covers asOf := by
    rw [Bool.eq_iff_iff, Window.covers_iff, Window.covers_iff]
    show (v.effectiveFrom ≤ asOf ∧ ∀ e, some row.effectiveFrom = some e → asOf < e) ↔
      v.effectiveFrom ≤ asOf ∧ ∀ e, v.effectiveTo = some e → asOf < e
    simp [hopen, hpast]
  rw [find?_append, find?_append]
  cases init.find? (·.window.covers asOf) with
  | some x => rfl
  | none =>
    cases hcovers : v.window.covers asOf with
    | true =>
      simp only [find?_cons, hsame, hcovers]
      rfl
    | false => simp only [find?_cons, find?_nil, hsame, hcovers, hnew]

/-! ## Writes -/

structure TermHistory (d : PlacementDb) : Prop where
  ids : (d.termVersions.map (·.id)).Nodup
  tiled : ∀ t r, TermsTiled (d.termsOf t r)

theorem termHistory_empty : TermHistory .empty := ⟨nodup_nil, fun _ _ => termsTiled_nil⟩

namespace TermHistory

variable {d : PlacementDb} {t r : Nat}

variable {v : GuaranteeTermVersion}

theorem mem_termsOf :
    v ∈ d.termsOf t r ↔ v ∈ d.termVersions ∧ v.tenantId = t ∧ v.requisitionId = r := by
  simp [PlacementDb.termsOf]

theorem congr {d' : PlacementDb} (h : TermHistory d) (hsame : d'.termVersions = d.termVersions) :
    TermHistory d' where
  ids := hsame ▸ h.ids
  tiled t r := by
    rw [PlacementDb.termsOf, hsame]
    exact h.tiled t r

theorem resolve_congr {d' : PlacementDb} (h : TermHistory d) (hsame :
    d'.termVersions = d.termVersions)
    {asOf : Nat} : resolve t r asOf d' = resolve t r asOf d := by
  rw [resolve_eq ((h.congr hsame).tiled t r), resolve_eq (h.tiled t r), PlacementDb.termsOf, hsame]
  rfl

/-- The writes to other tables. -/
def aside : WriteKind → Bool
  | .insertTerm | .closeTerm => false
  | _ => true

theorem termVersions_apply {w : Write} (hw : aside w.kind = true) (d : PlacementDb) :
    (w.apply d).termVersions = d.termVersions := by
  cases w with
  | term w => cases w <;> cases hw
  | placement w | assignment w | rateVersion w | permanent w | remedy w | offer w | proposal w =>
    cases w <;> rfl
  | lineage row | outbox event => rfl

theorem termsOf_insert (row : GuaranteeTermVersion) (d : PlacementDb) :
    ((TermWrite.insert row).apply d).termsOf t r =
      d.termsOf t r ++ if row.tenantId = t ∧ row.requisitionId = r then [row] else [] := by
  show (d.termVersions ++ [row]).filter _ = _
  rw [filter_append]
  by_cases hof : row.tenantId = t ∧ row.requisitionId = r
  · simp [hof.1, hof.2, PlacementDb.termsOf]
  · have hnot : (row.tenantId == t && row.requisitionId == r) = false := by simpa using hof
    simp [hof, hnot, PlacementDb.termsOf]

variable {row : GuaranteeTermVersion}

theorem ids_insert (h : (d.termVersions.map (·.id)).Nodup)
    (hrow : (TermWrite.insert row).allowed d = true) :
    (((TermWrite.insert row).apply d).termVersions.map (·.id)).Nodup := by
  refine nodup_concat h fun v hv => ?_
  have hfresh := all_eq_true.mp (Bool.and_eq_true_iff.mp hrow).2 v hv
  simp only [Bool.and_eq_true, bne_iff_ne] at hfresh
  exact hfresh.1

theorem nil_of_insert_open (h : TermHistory d)
    (hrow : (TermWrite.insert row).allowed d = true) (hopen : row.effectiveTo = none) :
    d.termsOf row.tenantId row.requisitionId = [] := by
  by_contra hsome
  obtain ⟨init, v, hversions, hlast, -⟩ :=
    (h.tiled row.tenantId row.requisitionId).exists_last hsome
  have hv : v ∈ d.termsOf row.tenantId row.requisitionId := by simp [hversions]
  obtain ⟨hmem, htenant, hrequisition⟩ := mem_termsOf.mp hv
  have hapart := all_eq_true.mp (Bool.and_eq_true_iff.mp hrow).2 v hmem
  simp [htenant, hrequisition, GuaranteeTermVersion.window, Window.overlaps, hlast, hopen] at hapart

theorem create (h : TermHistory d)
    (hrow : (TermWrite.insert row).allowed d = true) (hopen : row.effectiveTo = none)
    (hfirst : row.supersedesVersionId = none) : TermHistory ((TermWrite.insert row).apply d) where
  ids := ids_insert h.ids hrow
  tiled t r := by
    rw [termsOf_insert]
    by_cases hof : row.tenantId = t ∧ row.requisitionId = r
    · obtain ⟨rfl, rfl⟩ := hof
      rw [h.nil_of_insert_open hrow hopen, nil_append, if_pos ⟨rfl, rfl⟩]
      exact .first row hopen hfirst
    · rw [if_neg hof, append_nil]
      exact h.tiled t r

/-- The open version is closed, and its successor put behind it. -/
def closeAndInsert (v row : GuaranteeTermVersion) (d : PlacementDb) : PlacementDb :=
  (TermWrite.insert row).apply ((TermWrite.close v.id row.effectiveFrom).apply d)

theorem termsOf_close (id e : Nat) (d : PlacementDb) :
    ((TermWrite.close id e).apply d).termsOf t r =
      updateWhere (·.id == id) (·.endAt (some e)) (d.termsOf t r) :=
  filter_updateWhere_of_keep
    (q := fun v : GuaranteeTermVersion => v.tenantId == t && v.requisitionId == r) fun _ => rfl

section

variable (h : TermHistory d)

include h

theorem termsOf_revise (row : GuaranteeTermVersion)
    (hv : v ∈ d.termsOf t r)
    (hopen : v.effectiveTo = none) (htenant : row.tenantId = t) (hrequisition :
      row.requisitionId = r) :
    ∃ init, d.termsOf t r = init ++ [v] ∧
      (closeAndInsert v row d).termsOf t r = init ++ [v.endAt (some row.effectiveFrom), row] := by
  obtain ⟨init, hversions⟩ := (h.tiled t r).eq_last hv hopen
  refine ⟨init, hversions, ?_⟩
  -- the others have other ids
  have hids : (((d.termsOf t r)).map (·.id)).Nodup := h.ids.sublist (filter_sublist.map _)
  rw [hversions, map_append, map_singleton] at hids
  have hother : ∀ x ∈ init, (x.id == v.id) = false := by
    intro x hx
    rw [beq_eq_false_iff_ne]
    rintro hid
    have hdisjoint := (nodup_append.mp hids).2.2
    exact hdisjoint x.id (mem_map_of_mem hx) v.id mem_cons_self hid
  rw [closeAndInsert, termsOf_insert, termsOf_close, hversions, if_pos ⟨htenant, hrequisition⟩]
  have hclose : updateWhere (·.id == v.id) (·.endAt (some row.effectiveFrom)) (init ++ [v]) =
      init ++ [v.endAt (some row.effectiveFrom)] := by
    rw [updateWhere, map_append]
    show updateWhere _ _ init ++ _ = _
    rw [updateWhere_of_forall_not hother]
    simp
  rw [hclose, append_assoc]
  rfl

theorem termsOf_revise_of_not {v row : GuaranteeTermVersion}
    (hv : v ∈ d.termVersions) (hother : ¬(v.tenantId = t ∧ v.requisitionId = r))
    (htenant : row.tenantId = v.tenantId) (hrequisition : row.requisitionId = v.requisitionId) :
    (closeAndInsert v row d).termsOf t r = d.termsOf t r := by
  rw [closeAndInsert, termsOf_insert, termsOf_close, htenant, hrequisition, if_neg hother,
    append_nil]
  refine updateWhere_of_forall_not fun x hx => ?_
  rw [beq_eq_false_iff_ne]
  intro hid
  obtain ⟨hmem, hof⟩ := mem_termsOf.mp hx
  obtain rfl := inj_on_of_nodup_map h.ids hmem hv hid
  exact hother hof

theorem revise (row : GuaranteeTermVersion)
    (hv : v ∈ d.termVersions)
    (hopen : v.effectiveTo = none) (hafter : v.effectiveFrom < row.effectiveFrom)
    (htenant : row.tenantId = v.tenantId) (hrequisition : row.requisitionId = v.requisitionId)
    (hrow : row.effectiveTo = none) (hnames : row.supersedesVersionId = some v.id)
    (hinsert : (TermWrite.insert row).allowed
      ((TermWrite.close v.id row.effectiveFrom).apply d) = true) :
    TermHistory (closeAndInsert v row d) where
  ids := by
    have hids : ((TermWrite.close v.id row.effectiveFrom).apply d).termVersions.map (·.id) =
      d.termVersions.map (·.id) := map_updateWhere _ fun _ => rfl
    exact ids_insert (hids ▸ h.ids) hinsert
  tiled t r := by
    by_cases hof : v.tenantId = t ∧ v.requisitionId = r
    · obtain ⟨init, hbefore, hafter'⟩ := h.termsOf_revise row (mem_termsOf.mpr ⟨hv, hof⟩) hopen
        (htenant.trans hof.1) (hrequisition.trans hof.2)
      rw [hafter']
      exact (hbefore ▸ h.tiled t r).revise hopen hafter hrow hnames
    · rw [h.termsOf_revise_of_not hv hof htenant hrequisition]
      exact h.tiled t r

theorem resolve_revise {v row : GuaranteeTermVersion} (hv : v ∈ d.termVersions)
    (hopen : v.effectiveTo = none) (htenant : row.tenantId = v.tenantId)
    (hrequisition : row.requisitionId = v.requisitionId) (h' : TermHistory (closeAndInsert v row d))
    {asOf : Nat} (hpast : asOf < row.effectiveFrom) :
    (resolve t r asOf (closeAndInsert v row d)).map (Option.map (·.fixed)) =
      (resolve t r asOf d).map (Option.map (·.fixed)) := by
  rw [resolve_eq (h.tiled t r), resolve_eq (h'.tiled t r)]
  by_cases hof : v.tenantId = t ∧ v.requisitionId = r
  · obtain ⟨init, hbefore, hafter⟩ := h.termsOf_revise row (mem_termsOf.mpr ⟨hv, hof⟩) hopen
      (htenant.trans hof.1) (hrequisition.trans hof.2)
    rw [hbefore, hafter]
    exact congrArg Except.ok (find?_revise hopen hpast)
  · rw [h.termsOf_revise_of_not hv hof htenant hrequisition]

end

end TermHistory

/-! ## Operations -/

/-- The open version that a revision has loaded is there. -/
def TermLoaded : placementStore.Check
  | .read (.openTerm t r), some v, d =>
      v.tenantId = t ∧ v.requisitionId = r ∧ ∃ v' ∈ d.termVersions, v'.fixed = v.fixed
  | _, _, _ => True

theorem termLoaded_answer (s : PlacementStmt) (d : PlacementDb) :
    TermLoaded s (placementStore.answer s d) d := by
  cases s with
  | write w | updateOffer u | lockRead key q => trivial
  | read q =>
    cases q with
    | openTerm t r =>
      show TermLoaded (.read (.openTerm t r)) (d.answer (.openTerm t r)) d
      cases hfound : d.answer (.openTerm t r) with
      | none => trivial
      | some v =>
        have hmem := mem_of_mem_head? hfound
        rw [mem_insertionSort, mem_filter] at hmem
        obtain ⟨hv, htenant, hrequisition⟩ := TermHistory.mem_termsOf.mp hmem.1
        exact ⟨htenant, hrequisition, v, hv, rfl⟩
    | _ => trivial

theorem termLoaded_keep {s : PlacementStmt} {a : PlacementStmt.Ans s} {d d' : PlacementDb}
    (hlater : Persists d d') (h : TermLoaded s a d) : TermLoaded s a d' := by
  cases s with
  | write w | updateOffer u | lockRead key q => trivial
  | read q =>
    cases q with
    | openTerm t r =>
      cases a with
      | none => trivial
      | some v =>
        obtain ⟨htenant, hrequisition, x, hx, hfixed⟩ := h
        obtain ⟨x', hx', hfixed'⟩ := exists_of_prefix_map hlater.termVersions hx
        exact ⟨htenant, hrequisition, x', hx', hfixed'.trans hfixed⟩
    | _ => trivial

theorem GuaranteeTermVersion.of_fixed {v v' : GuaranteeTermVersion} (h : v'.fixed = v.fixed) :
    v'.id = v.id ∧ v'.tenantId = v.tenantId ∧ v'.requisitionId = v.requisitionId ∧
      v'.effectiveFrom = v.effectiveFrom := by
  have hid : v'.fixed.id = v.fixed.id := congrArg GuaranteeTermVersion.id h
  have htenant : v'.fixed.tenantId = v.fixed.tenantId := congrArg GuaranteeTermVersion.tenantId h
  have hrequisition : v'.fixed.requisitionId = v.fixed.requisitionId :=
    congrArg GuaranteeTermVersion.requisitionId h
  have hfrom : v'.fixed.effectiveFrom = v.fixed.effectiveFrom :=
    congrArg GuaranteeTermVersion.effectiveFrom h
  exact ⟨hid, htenant, hrequisition, hfrom⟩

namespace TermHistory

variable {d : PlacementDb} {ok : placementStore.Check}

theorem keeps_aside {op : PlacementOp} (h : TermHistory d) (hkinds : op.kinds.all aside = true) :
    (placementProgram op).wp ok (fun _ d' => TermHistory d') d := by
  refine wp_of_kinds ?_ (fun u d' _ _ hd => hd.congr rfl) h
  intro w d' hw _ hd
  exact hd.congr (termVersions_apply (all_eq_true.mp hkinds _ hw) d')

theorem createTerm (h : TermHistory d) (input : TermInput) :
    (PlacementTx.createTerm input).wp ok (fun _ d' => TermHistory d') d := by
  refine wp_createTerm fun id => ?_
  intro ws hadmits
  have hinsert : (TermWrite.insert (input.row id none)).allowed d = true :=
    ((admitsAll_cons _ _ _).mp hadmits).1
  exact (h.create hinsert rfl rfl).congr rfl

/-- **A revision** that commits: the version that it loaded is the open one
still, and no date before its day resolves to another version. -/
theorem reviseTerm (h : TermHistory d) (hok : ∀ s a d, ok s a d → Loads s →
    TermLoaded s a d) (input : TermInput)
    (todayUtc : Nat) :
    (PlacementTx.reviseTerm input todayUtc).wp ok (fun _ d' => TermHistory d' ∧
      ∀ t r asOf, asOf < todayUtc → (resolve t r asOf d').map (Option.map (·.fixed)) =
        (resolve t r asOf d).map (Option.map (·.fixed))) d := by
  refine wp_reviseTerm fun predecessor id htoday hread hafter => ?_
  intro ws hadmits
  obtain ⟨htenant, hrequisition, v, hv, hfixed⟩ := hok _ _ _ hread rfl
  obtain ⟨hid, htenant', hrequisition', hfrom⟩ := GuaranteeTermVersion.of_fixed hfixed
  obtain ⟨hclose, hrest⟩ := (admitsAll_cons _ _ _).mp hadmits
  obtain ⟨hinsert, -⟩ := (admitsAll_cons _ _ _).mp hrest
  -- the trigger lets a version be closed once
  have hopen : v.effectiveTo = none := by
    obtain ⟨x, hfound, hx⟩ := (Option.any_eq_true _ _).mp hclose
    have hxid : x.id = predecessor.id := by simpa using find?_some hfound
    obtain rfl := inj_on_of_nodup_map h.ids (mem_of_find?_eq_some hfound)
      hv (hxid.trans hid.symm)
    simpa using (Bool.and_eq_true_iff.mp hx).1
  have htables : (applyAll ws d).termVersions =
      (closeAndInsert v (input.row id (some predecessor.id)) d).termVersions := by
    simp only [ws, reviseWrites, applyAll_cons, applyAll_nil, closeAndInsert, hid]
    rfl
  rw [← hid] at hinsert
  have htenantRow : (input.row id (some predecessor.id)).tenantId = v.tenantId :=
    (htenant'.trans htenant).symm
  have hrequisitionRow : (input.row id (some predecessor.id)).requisitionId = v.requisitionId :=
    (hrequisition'.trans hrequisition).symm
  have hsound := h.revise (input.row id (some predecessor.id)) hv hopen (hfrom ▸ hafter)
    htenantRow hrequisitionRow rfl (congrArg some hid.symm) hinsert
  refine ⟨hsound.congr htables, fun t r asOf hpast => ?_⟩
  have hpast' := Nat.lt_of_lt_of_le hpast htoday
  rw [hsound.resolve_congr htables]
  exact h.resolve_revise hv hopen htenantRow hrequisitionRow hsound hpast'

end TermHistory

theorem termHistory_placementProgram {ok : placementStore.Check} (op : PlacementOp)
    (h : TermHistory d) (hok : ∀ s a d, ok s a d → Loads s → TermLoaded s a d) :
    (placementProgram op).wp ok (fun _ d' => TermHistory d') d := by
  cases op with
  | createTerm input => exact wp_giving (h.createTerm input)
  | reviseTerm input todayUtc =>
    exact wp_giving (Tx.wp_mono (h.reviseTerm hok input todayUtc) fun _ _ hd => hd.1)
  | _ => exact h.keeps_aside (by rfl)

/-! ## Runs -/

def termDiscipline : Discipline placementProgram where
  Allowed _ := True
  Inv := TermHistory
  Evolves _ := Persists
  cond _ _ _ := True
  parts := .none placementStore
  held _ _ _ := True
  pins := Parts.pins_none
  quiet := Reads
  effect_quiet _ d hs := effect_of_reads hs d
  load := Loads
  early := TermLoaded
  loadsFirst op _ := loadsFirst_placementProgram op
  early_answer s d _ _ := termLoaded_answer s d
  early_keep _ _ _ _ _ _ _ hlater h := termLoaded_keep hlater h
  keeps op d _ hd :=
    Tx.wp_and (termHistory_placementProgram op hd fun _ _ _ hok => hok.2.2)
      (Persists.program _ op d)

/-- The commit of a revision: every date before the day on which it read its
clock resolves to the version that it resolved to. -/
def PastStays (w : World placementStore PlacementOutcome) (m : Move PlacementOp)
    (w' : World placementStore PlacementOutcome) : Prop :=
  ∀ i f input todayUtc, m = .commit i → w.flights[i]? = some f →
    Leads (placementProgram (.reviseTerm input todayUtc)) f.trace f.rest →
      ∀ t r asOf, asOf < todayUtc → (resolve t r asOf w'.db).map (Option.map (·.fixed)) =
        (resolve t r asOf w.db).map (Option.map (·.fixed))

theorem pastStays_of_step {w w' : World placementStore PlacementOutcome} {m : Move PlacementOp}
    (hw : termDiscipline.Sound w) (h : termDiscipline.Step w m w') : PastStays w m w' := by
  rintro i f input todayUtc rfl hf hleads
  have hpost := hw.commit_op (P := fun d' => TermHistory d' ∧ ∀ t r asOf, asOf < todayUtc →
    (resolve t r asOf d').map (Option.map (·.fixed)) =
      (resolve t r asOf w.db).map (Option.map (·.fixed))) h hf trivial hleads
    (wp_giving (hw.inv.reviseTerm (fun _ _ _ hok => hok.2.2) input todayUtc))
  exact hpost.2

/-- **Guarantee terms.** In every run, in every state that is committed: the
versions of each requisition fill the time from the first one on, one is open
and each names the one before; resolution finds one version for a date from
the first one on and none before; and a revision leaves the past as it is. -/
theorem terms_resolve_once {moves : List (Move PlacementOp)}
    {w : World placementStore PlacementOutcome}
    (hrun : Run (World.Step placementProgram) (World.quiet .empty) moves w) :
    (∀ t r, ResolvesOnce w.db t r) ∧ ∀ m w', World.Step placementProgram w m w' →
      PastStays w m w' := by
  have hstep : ∀ w m w', World.Step placementProgram w m w' → termDiscipline.Step w m w' :=
    fun _ _ _ => Discipline.step_of_forall (fun _ _ _ => trivial) fun _ => trivial
  have hw := (Discipline.sound_quiet (D := termDiscipline) termHistory_empty).run (hrun.mono hstep)
  exact ⟨fun t r => (hw.inv.tiled t r).resolvesOnce, fun m w' h =>
    pastStays_of_step hw (hstep w m w' h)⟩

/-- Terms of a requisition, and a revision of them that takes effect on day
30. -/
theorem terms_resolve_in_turn : ∃ w : World placementStore PlacementOutcome,
    Run (World.Step placementProgram) (World.quiet .empty)
      (World.inTurn (.createTerm ⟨1, 20, 0, firstTerms, 7⟩) 500 3 ++
        World.inTurn (.reviseTerm ⟨1, 20, 30, firstTerms, 7⟩ 25) 500 5) w ∧
      (w.db.termsOf 1 20).map (·.window) = [⟨0, some 30⟩, ⟨30, none⟩] ∧ ResolvesOnce w.db 1 20 := by
  obtain ⟨w, hrun, hp⟩ := World.run_of_moves placementProgram (World.quiet .empty)
    (World.inTurn (.createTerm ⟨1, 20, 0, firstTerms, 7⟩) 500 3 ++
      World.inTurn (.reviseTerm ⟨1, 20, 30, firstTerms, 7⟩ 25) 500 5)
    (fun w : World placementStore PlacementOutcome =>
      decide ((w.db.termsOf 1 20).map (·.window) = [⟨0, some 30⟩, ⟨30, none⟩])) (by decide +kernel)
  exact ⟨w, hrun, of_decide_eq_true hp, (terms_resolve_once hrun).1 1 20⟩

end AramoPlatform.Placement
