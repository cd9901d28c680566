import AramoPlatform.Placement.Lineage

/-!
# The history of an offer

The update of an offer asks for the state that was read before and then holds
the row: what is recorded after it is about the row that was updated. So the
events and the revisions of an offer are those of its row. The sweep asks for
the state alone: an expiry that was put off since the row was listed is missed.
-/

namespace AramoPlatform.Placement

open Lib PlacementTx List

/-! ## The rows of an offer -/

def PlacementDb.revisionsOf (d : PlacementDb) (offerId : Nat) : List OfferRevision :=
  d.offerRevisions.filter (·.offerId == offerId)

def offerLegal : Option OfferState → OfferState → Prop
  | none, target => target = .draft
  | some source, target => isLegalOfferTransition source target = true

def offerChronicle : Chronicle Offer OfferState where
  id := (·.id)
  state := (·.state)
  start _ := none
  legal := offerLegal
  tells _ := false

/-- The revisions are numbered from one on, and the last one has the terms of
the offer. -/
structure Revised (o : Offer) (revisions : List OfferRevision) : Prop where
  numbers : revisions.map (·.revisionNumber) = range' 1 revisions.length
  current : revisions.getLast?.map (·.terms) = some o.terms
  tenant : ∀ r ∈ revisions, r.tenantId = o.engagement.tenantId

structure OfferSound (d : PlacementDb) : Prop where
  journal : Kept offerChronicle d.offers d.offerEvents []
  revised : ∀ o ∈ d.offers, Revised o (d.revisionsOf o.id)
  owned : ∀ r ∈ d.offerRevisions, ∃ o ∈ d.offers, o.id = r.offerId

theorem offerSound_empty : OfferSound .empty := by
  refine ⟨Kept.nil, ?_, ?_⟩ <;> simp [PlacementDb.empty]

theorem Revised.append {o o' : Offer} {revisions : List OfferRevision} {row : OfferRevision}
    (h : Revised o revisions) (hsame : o'.engagement = o.engagement)
    (hnumber : row.revisionNumber = revisions.length + 1) (hterms : row.terms = o'.terms)
    (htenant : row.tenantId = o.engagement.tenantId) : Revised o' (revisions ++ [row]) where
  numbers := by
    rw [map_append, h.numbers, length_append, length_singleton, range'_concat,
      map_singleton, hnumber, Nat.one_mul, Nat.add_comm 1]
  current := by
    rw [getLast?_append, getLast?_singleton]
    exact congrArg some hterms
  tenant r hr := by
    rw [hsame]
    rcases mem_append.mp hr with hold | hnew
    · exact h.tenant r hold
    · exact mem_singleton.mp hnew ▸ htenant

namespace OfferSound

variable {d : PlacementDb}

/-! ## Writes -/

theorem congr {d' : PlacementDb} (h : OfferSound d) (hoffers : d'.offers = d.offers)
    (hevents : d'.offerEvents = d.offerEvents) (hrevisions : d'.offerRevisions = d.offerRevisions) :
    OfferSound d' where
  journal := by simpa only [hoffers, hevents] using h.journal
  revised := by simpa only [PlacementDb.revisionsOf, hoffers, hrevisions] using h.revised
  owned := by simpa only [hoffers, hrevisions] using h.owned

/-- The writes to other tables. -/
def aside : WriteKind → Bool
  | .insertOffer | .offerEvent | .offerRevision | .updateOffer => false
  | _ => true

theorem tables_aside {w : Write} (hw : aside w.kind = true) :
    (w.apply d).offers = d.offers ∧ (w.apply d).offerEvents = d.offerEvents ∧
      (w.apply d).offerRevisions = d.offerRevisions := by
  cases w with
  | offer w => cases w <;> cases hw
  | placement w | assignment w | rateVersion w | permanent w | remedy w | proposal w | term w =>
    cases w <;> exact ⟨rfl, rfl, rfl⟩
  | lineage row | outbox event => exact ⟨rfl, rfl, rfl⟩

theorem offer_of_not_aside {w : Write} (hw : aside w.kind = false) : ∃ o, w = .offer o := by
  cases w with
  | offer w => exact ⟨w, rfl⟩
  | placement w | assignment w | rateVersion w | permanent w | remedy w | proposal w | term w =>
    cases w <;> cases hw
  | lineage row => cases hw
  | outbox event =>
    rw [Write.kind] at hw
    split at hw <;> cases hw

theorem write_aside (h : OfferSound d) {w : Write} (hw : aside w.kind = true) :
    OfferSound (w.apply d) := by
  obtain ⟨hoffers, hevents, hrevisions⟩ := tables_aside (d := d) hw
  exact h.congr hoffers hevents hrevisions

theorem fresh_of_insert {row : Offer} (h : (OfferWrite.insert row).allowed d = true) :
    ∀ o ∈ d.offers, o.id ≠ row.id := by
  intro o ho
  simpa [OfferWrite.allowed] using all_eq_true.mp h o ho

theorem create (h : OfferSound d) {input : CreateOfferInput} {id : Nat}
    (hrow : (OfferWrite.insert (input.row id)).allowed d = true) :
    OfferSound (applyAll [.offer (.insert (input.row id)), .offer (.event ⟨id, none, .draft⟩),
      .outbox (.offerCreated id input.engagement),
      .offer (.insertRevision (revisionRow (input.row id) 1 input.actorId none))] d) := by
  have hfresh := fresh_of_insert hrow
  have hnone : ∀ r ∈ d.offerRevisions, r.offerId ≠ id := by
    intro r hr heq
    obtain ⟨o, ho, hid⟩ := h.owned r hr
    exact hfresh o ho (hid.trans heq)
  constructor
  · exact h.journal.insert_silent hfresh (forall_mem_singleton.mpr rfl) ⟨rfl, rfl, rfl⟩ rfl
  · intro o ho
    show Revised o ((d.offerRevisions ++ [_]).filter _)
    rw [filter_append]
    rcases (mem_append.mp ho).imp_right mem_singleton.mp with hold | rfl
    · have hne : (id == o.id) = false := beq_eq_false_iff_ne.mpr (hfresh o hold).symm
      have hother : [revisionRow (input.row id) 1 input.actorId none].filter
          (·.offerId == o.id) = [] :=
        filter_cons_of_neg (ne_true_of_eq_false hne)
      rw [hother, append_nil]
      exact h.revised o hold
    · have hbefore : d.offerRevisions.filter (·.offerId == id) = [] := by
        rw [filter_eq_nil_iff]
        intro r hr
        simpa using hnone r hr
      have hfirst : [revisionRow (input.row id) 1 input.actorId none].filter
          (·.offerId == id) = [revisionRow (input.row id) 1 input.actorId none] :=
        filter_cons_of_pos (beq_self_eq_true id)
      show Revised _ (d.offerRevisions.filter (·.offerId == id) ++ _)
      rw [hbefore]
      show Revised _ ([revisionRow (input.row id) 1 input.actorId none].filter (·.offerId == id))
      rw [hfirst]
      exact ⟨rfl, rfl, forall_mem_singleton.mpr rfl⟩
  · intro r hr
    rcases (mem_append.mp hr).imp_right mem_singleton.mp with hold | rfl
    · obtain ⟨o, ho, hid⟩ := h.owned r hold
      exact ⟨o, mem_append_left _ ho, hid⟩
    · exact ⟨input.row id, mem_append_right _ mem_cons_self, rfl⟩

theorem hits_iff (h : OfferSound d) {u : OfferUpdate} {o : Offer} (ho : o ∈ d.offers)
    (hit : u.hits o = true) : ∀ x ∈ d.offers, u.hits x = (x.id == o.id) := by
  intro x hx
  have hoid : o.id = u.id := by
    simp only [OfferUpdate.hits, Bool.and_eq_true, beq_iff_eq] at hit
    exact hit.1.1
  cases hxid : x.id == o.id with
  | true =>
    obtain rfl := inj_on_of_nodup_map h.journal.ids hx ho (eq_of_beq hxid)
    exact hit
  | false =>
    simp only [OfferUpdate.hits, ← hoid, hxid, Bool.false_and]

/-- An offer moves from the state that it is in; its terms are those of the
last revision again. -/
theorem move (h : OfferSound d) {u : OfferUpdate} {o : Offer} {revisions : List OfferRevision}
    {d' : PlacementDb} (ho : o ∈ d.offers) (hit : u.hits o = true) (hallowed : u.allowed d = true)
    (hoffers : d'.offers = updateWhere u.hits (u.change.onOffer u.target) d.offers)
    (hevents : d'.offerEvents = d.offerEvents ++ [⟨o.id, some o.state, u.target⟩])
    (hrevisions : d'.offerRevisions = d.offerRevisions ++ revisions)
    (hof : ∀ r ∈ revisions, r.offerId = o.id)
    (hrevised : Revised (u.change.onOffer u.target o) (d.revisionsOf o.id ++ revisions)) :
    OfferSound d' := by
  have hrow := updateWhere_congr (f := u.change.onOffer u.target) (h.hits_iff ho hit)
  have hedge : isLegalOfferTransition o.state u.target = true := by
    simpa [hit] using all_eq_true.mp hallowed o ho
  rw [hrow] at hoffers
  have hids : d'.offers.map (·.id) = d.offers.map (·.id) := by
    rw [hoffers]
    exact map_updateWhere _ fun _ => rfl
  constructor
  · rw [hoffers, hevents]
    exact h.journal.move (c := offerChronicle) ho (fun _ => rfl) (fun _ => rfl) (fun _ => rfl) hedge
  · intro x hx
    rw [PlacementDb.revisionsOf, hrevisions, filter_append]
    rw [hoffers] at hx
    rcases (mem_updateWhere_key h.journal.ids ho).mp hx with ⟨hold, hne⟩ | rfl
    · have hnone : revisions.filter (·.offerId == x.id) = [] := by
        rw [filter_eq_nil_iff]
        intro r hr
        have hother : o.id ≠ x.id := Ne.symm hne
        simpa [hof r hr] using hother
      rw [hnone, append_nil]
      exact h.revised x hold
    · have hown : revisions.filter (·.offerId == o.id) = revisions := by
        rw [filter_eq_self]
        intro r hr
        exact beq_iff_eq.mpr (hof r hr)
      show Revised _ (d.revisionsOf o.id ++ revisions.filter (·.offerId == o.id))
      rw [hown]
      exact hrevised
  · intro r hr
    have hback : ∀ y ∈ d.offers, y.id = r.offerId → ∃ y' ∈ d'.offers, y'.id = r.offerId := by
      intro y hy hid
      obtain ⟨y', hy', hid'⟩ := mem_map.mp (hids ▸ mem_map_of_mem hy)
      exact ⟨y', hy', hid'.trans hid⟩
    rw [hrevisions] at hr
    rcases mem_append.mp hr with hold | hnew
    · obtain ⟨y, hy, hid⟩ := h.owned r hold
      exact hback y hy hid
    · exact hback o ho (hof r hnew).symm

end OfferSound

/-! ## Locked offers -/

/-- What belongs to the lock of an offer. -/
def offerPart : RowKey → PlacementDb → List Offer × List (Entry OfferState) × List OfferRevision
  | .offer id, d =>
      (d.offers.filter (·.id == id), d.offerEvents.filter (·.subject == id), d.revisionsOf id)
  | _, _ => ([], [], [])

/-- The expiry of the terms was before an instant. -/
def OfferTerms.isDue (now : Nat) (t : OfferTerms) : Bool :=
  t.offerExpiresAt.any fun expiresAt => decide (expiresAt < now)

/-- What a transaction that holds an offer was told of it, and that what a
sweep lists was due. -/
def OfferHeld : placementStore.Check
  | .read (.overdueOffer now _), listed, _ => ∀ o, listed = some o → o.terms.isDue now = true
  | .updateOffer u, hit, d => hit = d.offers.any u.hits
  | .lockRead (.offer id) (.offerById id'), row, d => id = id' → row = d.answer (.offerById id')
  | .lockRead (.offer id) (.revisionCount t id'), count, d =>
      id = id' → count = d.answer (.revisionCount t id')
  | _, _, _ => True

theorem offerPart_aside {w : Write} (hw : OfferSound.aside w.kind = true) (k : RowKey)
    (d : PlacementDb) : offerPart k (w.apply d) = offerPart k d := by
  obtain ⟨hoffers, hevents, hrevisions⟩ := OfferSound.tables_aside (d := d) hw
  cases k <;> simp only [offerPart, PlacementDb.revisionsOf, hoffers, hevents, hrevisions]

theorem offers_filter_updateOffer (u : OfferUpdate) (id : Nat) (offers : List Offer) :
    (updateWhere u.hits (u.change.onOffer u.target) offers).filter (·.id == id) =
      updateWhere u.hits (u.change.onOffer u.target) (offers.filter (·.id == id)) :=
  filter_updateWhere_of_keep (q := fun o : Offer => o.id == id) fun _ => rfl

theorem offerPart_local (s : PlacementStmt) (k : RowKey) (d d' : PlacementDb)
    (h : offerPart k d = offerPart k d') :
    offerPart k (placementStore.effect s d) = offerPart k (placementStore.effect s d') := by
  cases k with
  | offer id =>
    cases s with
    | read q | lockRead key q => exact h
    | write w =>
      cases hw : OfferSound.aside w.kind with
      | true => exact (offerPart_aside hw _ d).trans (h.trans (offerPart_aside hw _ d').symm)
      | false =>
        obtain ⟨w, rfl⟩ := OfferSound.offer_of_not_aside hw
        simp only [offerPart, PlacementDb.revisionsOf, Prod.mk.injEq] at h ⊢
        obtain ⟨hoffers, hevents, hrevisions⟩ := h
        cases w <;> simp [Write.apply, OfferWrite.apply, hoffers, hevents, hrevisions]
    | updateOffer u =>
      simp only [offerPart, PlacementDb.revisionsOf, Prod.mk.injEq, OfferUpdate.apply] at h ⊢
      obtain ⟨hoffers, hevents, hrevisions⟩ := h
      refine ⟨?_, hevents, hrevisions⟩
      rw [offers_filter_updateOffer, offers_filter_updateOffer, hoffers]
  | _ => rfl

theorem offerPart_frame (s : PlacementStmt) (k : RowKey) (d : PlacementDb)
    (h : k ∉ placementStore.locks s) : offerPart k (placementStore.effect s d) = offerPart k d := by
  cases k with
  | offer id =>
    cases s with
    | read q | lockRead key q => rfl
    | write w =>
      cases hw : OfferSound.aside w.kind with
      | true => exact offerPart_aside hw _ d
      | false =>
        obtain ⟨w, rfl⟩ := OfferSound.offer_of_not_aside hw
        simp only [offerPart, PlacementDb.revisionsOf, Prod.mk.injEq]
        cases w <;> simp [Write.locks] at h <;>
          simp [Write.apply, OfferWrite.apply, beq_eq_false_iff_ne.mpr (Ne.symm h)]
    | updateOffer u =>
      have hne : u.id ≠ id := by simpa [eq_comm] using h
      have hkeep : (u.apply d).offers.filter (·.id == id) = d.offers.filter (·.id == id) := by
        refine filter_updateWhere fun o _ hit => ?_
        simp only [OfferUpdate.hits, Bool.and_eq_true, beq_iff_eq] at hit
        have hother : (o.id == id) = false := beq_eq_false_iff_ne.mpr (hit.1.1 ▸ hne)
        exact ⟨hother, hother⟩
      exact congrArg (·, d.offerEvents.filter (·.subject == id), d.revisionsOf id) hkeep
  | _ => rfl

def offerParts : Parts placementStore where
  Part := List Offer × List (Entry OfferState) × List OfferRevision
  part := offerPart
  part_local := offerPart_local
  part_frame := offerPart_frame

theorem any_hits_filter (u : OfferUpdate) (d : PlacementDb) :
    d.offers.any u.hits = (d.offers.filter (·.id == u.id)).any u.hits := by
  rw [any_filter]
  congr 1
  funext o
  cases hid : o.id == u.id <;> simp [OfferUpdate.hits, hid]

theorem countP_revisions (t id : Nat) (d : PlacementDb) :
    d.offerRevisions.countP (fun r => r.tenantId == t && r.offerId == id) =
      (d.revisionsOf id).countP (·.tenantId == t) := by
  rw [PlacementDb.revisionsOf, countP_filter]

theorem pins_offerHeld : offerParts.Pins OfferHeld where
  answer s d := by
    cases s with
    | write w => trivial
    | updateOffer u => rfl
    | read q =>
      cases q with
      | overdueOffer now item =>
        intro o ho
        have hmem : o ∈ d.overdueOffers now := mem_of_getElem? ho
        exact (Bool.and_eq_true_iff.mp (mem_filter.mp hmem).2).2
      | _ => trivial
    | lockRead key q =>
      cases key with
      | offer id =>
        cases q with
        | offerById id' | revisionCount t id' => exact fun _ => rfl
        | _ => trivial
      | _ => trivial
  keep s a d d' h ha := by
    cases s with
    | write w => trivial
    | read q =>
      cases q with
      | overdueOffer now item => exact ha
      | _ => trivial
    | updateOffer u =>
      have hoffers : d.offers.filter (·.id == u.id) = d'.offers.filter (·.id == u.id) :=
        congrArg Prod.fst (h (.offer u.id) mem_cons_self)
      show a = d'.offers.any u.hits
      rw [any_hits_filter, ← hoffers, ← any_hits_filter]
      exact ha
    | lockRead key q =>
      cases key with
      | offer id =>
        have hpart : offerPart (.offer id) d = offerPart (.offer id) d' := h _ mem_cons_self
        simp only [offerPart, Prod.mk.injEq] at hpart
        obtain ⟨hoffers, -, hrevisions⟩ := hpart
        cases q with
        | offerById id' =>
          rintro rfl
          show a = d'.offers.find? (·.id == id)
          rw [← head?_filter, ← hoffers, head?_filter]
          exact ha rfl
        | revisionCount t id' =>
          rintro rfl
          show a = d'.offerRevisions.countP _
          rw [countP_revisions, ← hrevisions, ← countP_revisions]
          exact ha rfl
        | _ => trivial
      | _ => trivial

/-! ## Operations -/

/-- The expiry is not later than it was when the row was listed. -/
def notPutOff (listed now : Option Nat) : Bool :=
  now.any fun t => listed.any fun t' => decide (t ≤ t')

/-- The row that a statement lists for a sweep. -/
def listedBy : (s : PlacementStmt) → PlacementStmt.Ans s → Option Offer
  | .read (.overdueOffer _ _), listed => listed
  | _, _ => none

/-- The row that a sweep has listed, if it is in the same state still or
again, has not had its expiry put off. -/
def ListedStands : placementStore.Check := fun s a d =>
  ∀ listed ∈ listedBy s a, ∀ o ∈ d.offers, o.id = listed.id → o.state = listed.state →
    notPutOff listed.terms.offerExpiresAt o.terms.offerExpiresAt = true

instance (s : PlacementStmt) (a : PlacementStmt.Ans s) (d : PlacementDb) :
    Decidable (ListedStands s a d) :=
  inferInstanceAs (Decidable (∀ listed ∈ listedBy s a, ∀ o ∈ d.offers, o.id = listed.id →
    o.state = listed.state → notPutOff listed.terms.offerExpiresAt o.terms.offerExpiresAt = true))

namespace OfferSound

variable {ok : placementStore.Check}

theorem keeps_aside {op : PlacementOp} (h : OfferSound d) (hkinds : op.kinds.all aside = true)
    (hupdate : .updateOffer ∉ op.kinds) :
    (placementProgram op).wp ok (fun _ d' => OfferSound d') d := by
  refine wp_of_kinds ?_ ?_ h
  · intro w d' hw _ hd
    exact hd.write_aside (all_eq_true.mp hkinds _ hw)
  · intro u d' hu _ _
    exact absurd hu hupdate

theorem exists_hit {u : OfferUpdate} (h : OfferHeld (.updateOffer u) true d) :
    ∃ o ∈ d.offers, u.hits o = true :=
  any_eq_true.mp (Eq.symm h)

theorem of_hits {u : OfferUpdate} {o : Offer} (h : u.hits o = true) :
    o.id = u.id ∧ o.engagement.tenantId = u.tenantId ∧ o.state = u.source := by
  simpa [OfferUpdate.hits, and_assoc] using h

theorem revised_of_unchanged (h : OfferSound d) {o : Offer} (ho :
    o ∈ d.offers) {change : OfferChange}
    (hsame : change.termsChanged = false) (target : OfferState) :
    Revised (change.onOffer target o) (d.revisionsOf o.id ++ []) := by
  obtain ⟨hnumbers, hcurrent, htenant⟩ := h.revised o ho
  rw [append_nil]
  exact ⟨hnumbers, hcurrent.trans (congrArg some (OfferChange.onTerms_of_unchanged hsame _).symm),
    htenant⟩

theorem transitionOffer (h : OfferSound d) (hok : ∀ s a d, ok s a d → OfferHeld s a d)
    (input : TransitionOfferInput) :
    (PlacementTx.transitionOffer input).wp ok (fun _ d' => OfferSound d') d := by
  refine wp_transitionOffer fun existing action updated => ?_
  intro u record _ _ hhit hallowed hupdated _
  obtain ⟨o, ho, hits⟩ := exists_hit (hok _ _ _ hhit)
  obtain ⟨hid, htenant, hstate⟩ := of_hits hits
  -- what the transaction reads of the row that it has locked
  have hrow : updated = input.change.onOffer input.target o := by
    have hread : some updated = (u.apply d).offers.find? (·.id == input.id) :=
      hok _ _ _ hupdated rfl
    have hmem : u.change.onOffer u.target o ∈ (u.apply d).offers := mem_updateWhere_of_pos ho hits
    have hids : ((u.apply d).offers.map (·.id)).Nodup :=
      nodup_updateWhere (fun _ => rfl) h.journal.ids
    have hfound := find?_key_eq_some hids hmem
    have hkey : (u.change.onOffer u.target o).id = input.id := hid
    rw [hkey] at hfound
    exact Option.some.inj (hread.trans hfound)
  constructor
  · intro hsame
    refine h.move ho hits hallowed rfl ?_ (append_nil _).symm ?_
      (h.revised_of_unchanged ho hsame _)
    · rw [hid, hstate]
      rfl
    · intro r hr
      cases hr
  · intro priorCount revision hchanged hcount _
    have hprior : priorCount = d.offerRevisions.countP fun r =>
      r.tenantId == input.tenantId && r.offerId == input.id := hok _ _ _ hcount rfl
    -- all revisions of the offer are of its tenant
    have hall : (d.revisionsOf o.id).countP (·.tenantId == input.tenantId) =
        (d.revisionsOf o.id).length := by
      rw [countP_eq_length]
      intro r hr
      exact beq_iff_eq.mpr (((h.revised o ho).tenant r hr).trans htenant)
    rw [countP_revisions, ← show o.id = input.id from hid, hall] at hprior
    refine h.move ho hits hallowed rfl ?_ rfl ?_
      ((h.revised o ho).append rfl ?_ ?_ htenant.symm)
    · rw [hid, hstate]
      rfl
    · exact forall_mem_singleton.mpr hid.symm
    · exact congrArg (· + 1) hprior
    · exact congrArg Offer.terms hrow

theorem expireOverdueOffers (h : OfferSound d) (hok : ∀ s a d, ok s a d → OfferHeld s a d)
    (now item : Nat) :
    (PlacementTx.expireOverdueOffers now item).wp ok (fun _ d' => OfferSound d') d := by
  refine wp_expireOverdueOffers fun listed => ?_
  intro u record _ hallowed
  constructor
  · intro hmiss
    have hmissed : false = d.offers.any u.hits := hok _ _ _ hmiss
    have hnone : ∀ o ∈ d.offers, u.hits o = false := by simpa using hmissed
    exact h.congr (updateWhere_of_forall_not hnone) rfl rfl
  · intro hhit _
    obtain ⟨o, ho, hits⟩ := exists_hit (hok _ _ _ hhit)
    obtain ⟨hid, htenant, hstate⟩ := of_hits hits
    refine h.move ho hits hallowed rfl ?_ (append_nil _).symm ?_
      (h.revised_of_unchanged ho rfl _)
    · rw [hid, hstate]
      rfl
    · intro r hr
      cases hr

end OfferSound

/-- **One operation** that holds the offer that it writes. -/
theorem offerSound_placementProgram {ok : placementStore.Check} {d : PlacementDb} (op : PlacementOp)
    (h : OfferSound d) (hok : ∀ s a d, ok s a d → OfferHeld s a d) :
    (placementProgram op).wp ok (fun _ d' => OfferSound d') d := by
  cases op with
  | createOffer input =>
    refine wp_giving (wp_createOffer fun id _ => ?_)
    intro ws hadmits
    exact h.create ((admitsAll_cons _ _ _).mp hadmits).1
  | transitionOffer input => exact wp_giving (h.transitionOffer hok input)
  | expireOverdueOffers now item => exact wp_giving (h.expireOverdueOffers hok now item)
  | _ => exact h.keeps_aside (by rfl) (by simp [PlacementOp.kinds])

/-- A final offer stays as it is. -/
def FinalsStay (d d' : PlacementDb) : Prop := ∀ o ∈ d.offers,
    o.state.isTerminal = true → o ∈ d'.offers

theorem finalsStay_placementProgram {ok : placementStore.Check} (op :
    PlacementOp) (d : PlacementDb) :
    (placementProgram op).wp ok (fun _ d' => FinalsStay d d') d := by
  refine wp_of_kinds ?_ ?_ fun o ho _ => ho
  · intro w d' _ _ h o ho hfinal
    have hmem := h o ho hfinal
    cases w with
    | offer w =>
      cases w with
      | insert row => exact mem_append_left _ hmem
      | event entry | insertRevision row => exact hmem
    | placement w | assignment w | rateVersion w | permanent w | remedy w | proposal w | term w =>
      cases w <;> exact hmem
    | lineage row | outbox event => exact hmem
  · intro u d' _ hallowed h o ho hfinal
    refine mem_updateWhere_of_not (h o ho hfinal) ?_
    by_contra hits
    have hlegal := all_eq_true.mp hallowed o (h o ho hfinal)
    rw [Bool.not_eq_false] at hits
    rw [hits] at hlegal
    rw [not_isTerminal_of_legal hlegal] at hfinal
    cases hfinal

/-- Who is expired now and was not before. -/
def ExpiredWhenDue (now : Nat) (d d' : PlacementDb) : Prop :=
  ∀ o ∈ d.offers, ∀ o' ∈ d'.offers, o'.id = o.id → o'.state = .expired →
    o.state = .expired ∨ o.terms.isDue now = true

instance (now : Nat) (d d' : PlacementDb) : Decidable (ExpiredWhenDue now d d') :=
  inferInstanceAs (Decidable (∀ o ∈ d.offers, ∀ o' ∈ d'.offers, o'.id = o.id →
    o'.state = .expired → o.state = .expired ∨ o.terms.isDue now = true))

theorem isDue_of_notPutOff {now : Nat} {listed terms : OfferTerms} (hlisted :
    listed.isDue now = true)
    (h : notPutOff listed.offerExpiresAt terms.offerExpiresAt = true) : terms.isDue now = true := by
  simp only [notPutOff, OfferTerms.isDue, Option.any_eq_true, decide_eq_true_eq] at *
  obtain ⟨t, ht, t', ht', hle⟩ := h
  obtain ⟨t'', ht'', hlt⟩ := hlisted
  obtain rfl := Option.some.inj (ht'.symm.trans ht'')
  exact ⟨t, ht, Nat.lt_of_le_of_lt hle hlt⟩

/-- **A sweep** whose listed row has not had its expiry put off. -/
theorem expiredWhenDue_sweep {ok : placementStore.Check} {d : PlacementDb} (h : OfferSound d)
    (hok : ∀ s a d, ok s a d → ListedStands s a d ∧ OfferHeld s a d) (now item : Nat) :
    (placementProgram (.expireOverdueOffers now item)).wp ok (fun _ d' =>
      ExpiredWhenDue now d d') d := by
  refine wp_giving (wp_expireOverdueOffers fun listed => ?_)
  intro u record hlisted hallowed
  obtain ⟨hstands, hheld⟩ := hok _ _ _ hlisted
  have hdue : listed.terms.isDue now = true := hheld listed rfl
  have hsound : ExpiredWhenDue now d (u.apply d) := by
    intro o ho o' ho' hid hexpired
    rcases of_mem_updateWhere ho' with ⟨hold, -⟩ | ⟨x, hx, hits, rfl⟩
    · obtain rfl := inj_on_of_nodup_map h.journal.ids hold ho hid
      exact .inl hexpired
    · obtain rfl := inj_on_of_nodup_map h.journal.ids hx ho hid
      obtain ⟨hxid, -, hstate⟩ := OfferSound.of_hits hits
      exact .inr (isDue_of_notPutOff hdue (hstands listed rfl x hx hxid hstate))
  exact ⟨fun _ => hsound, fun _ _ => hsound⟩

/-! ## Runs -/

def offerDiscipline (cond : placementStore.Check) : Discipline placementProgram where
  Allowed _ := True
  Inv := OfferSound
  Evolves _ := FinalsStay
  cond := cond
  parts := offerParts
  held := OfferHeld
  pins := pins_offerHeld
  quiet := Reads
  effect_quiet _ d hs := effect_of_reads hs d
  load _ := False
  early _ _ _ := True
  loadsFirst op _ := Tx.loadsFirst_of_only (Tx.only_mono (only_placementProgram op) fun _ _ => id)
  early_answer _ _ _ _ := trivial
  early_keep _ _ _ _ _ _ _ _ _ := trivial
  keeps op d _ hd := Tx.wp_and (offerSound_placementProgram op hd fun _ _ _ h => h.2.1)
    (finalsStay_placementProgram op d)

/-- The commit of a sweep expires what was due. -/
def SweptWhenDue (w : World placementStore PlacementOutcome) (m : Move PlacementOp)
    (w' : World placementStore PlacementOutcome) : Prop :=
  ∀ i f now item, m = .commit i → w.flights[i]? = some f →
    Leads (placementProgram (.expireOverdueOffers now item)) f.trace f.rest →
      ExpiredWhenDue now w.db w'.db

section

variable {w w' : World placementStore PlacementOutcome} {m : Move PlacementOp}

theorem offerStep_of_step (h : World.Step placementProgram w m w') :
    (offerDiscipline fun _ _ _ => True).Step w m w' :=
  Discipline.step_of_forall (fun _ _ _ => trivial) (fun _ => trivial) h

/-- What is sound is so under every condition. -/
theorem offerSound_under {cond cond' : placementStore.Check}
    (hw : (offerDiscipline cond).Sound w) : (offerDiscipline cond').Sound w :=
  ⟨hw.onCourse, hw.exclusive, hw.held, hw.early, hw.inv⟩

theorem finalsStay_of_step (hw : (offerDiscipline fun _ _ _ => True).Sound w)
    (h : World.Step placementProgram w m w') : FinalsStay w.db w'.db := by
  rcases hw.evolves (offerStep_of_step h) with hsame | ⟨_, hstay⟩
  · rw [hsame]
    exact fun o ho _ => ho
  · exact hstay

theorem sweptWhenDue_of_step (hw : (offerDiscipline ListedStands).Sound w)
    (h : World.Step placementProgram w m w') (hlisted : CommitsOn ListedStands w m) :
    SweptWhenDue w m w' := by
  rintro i f now item rfl hf hleads
  exact hw.commit_op (P := ExpiredWhenDue now w.db) ⟨h, hlisted, fun _ _ => trivial⟩ hf trivial
    hleads (expiredWhenDue_sweep hw.inv (fun _ _ _ hok => ⟨hok.1, hok.2.1⟩) now item)

end

/-- **The history of offers.** In every run the events of each offer follow one another up to its
state, its revisions are numbered from one on and the last has its terms, and a final offer stays
as it is. A sweep that finds the expiry that it listed, or an earlier one, expires only what is
due. -/
theorem offers_expire_when_due {moves : List (Move PlacementOp)}
    {w : World placementStore PlacementOutcome}
    (hrun : Run (World.Step placementProgram) (World.quiet .empty) moves w) :
    OfferSound w.db ∧ ∀ m w', World.Step placementProgram w m w' →
      FinalsStay w.db w'.db ∧ (CommitsOn ListedStands w m → SweptWhenDue w m w') := by
  have hw : (offerDiscipline fun _ _ _ => True).Sound w :=
    (Discipline.sound_quiet _ offerSound_empty).run (hrun.mono fun _ _ _ => offerStep_of_step)
  exact ⟨hw.inv, fun m w' hstep => ⟨finalsStay_of_step hw hstep,
    sweptWhenDue_of_step (offerSound_under hw) hstep⟩⟩

/-! ### A sweep and a renegotiation -/

/-- It is sent, and expires at 50. -/
def sendFirstOffer : List (Move PlacementOp) :=
  [.start (.createOffer ⟨firstEngagement, { plainTerms with offerExpiresAt := some 50 }, 7⟩)] ++
    World.advances 0 100 6 ++ [.commit 0, .start (moveFirstOffer .sent)] ++ World.advances 0 0 5 ++
    [.commit 0]

/-- The sweep comes later, and is about to commit. -/
def sweptInTurn : List (Move PlacementOp) :=
  sendFirstOffer ++ [.start (.expireOverdueOffers 100 0)] ++ World.advances 0 0 4

theorem offers_expire_in_turn : ∃ w w' : World placementStore PlacementOutcome,
    Run (World.Step placementProgram) (World.quiet .empty) sweptInTurn w ∧
      World.Step placementProgram w (.commit 0) w' ∧ w'.db.offers.map (·.state) = [.expired] ∧
        OfferSound w.db ∧ SweptWhenDue w (.commit 0) w' := by
  obtain ⟨w, hrun, hp⟩ := World.run_of_moves placementProgram (World.quiet .empty) sweptInTurn
    (fun w : World placementStore PlacementOutcome =>
      World.commitsTest ListedStands w (.commit 0 : Move PlacementOp) &&
        (w.next placementProgram (.commit 0)).any
          fun w' : World placementStore PlacementOutcome =>
            w'.db.offers.map (·.state) == [.expired]) (by decide +kernel)
  obtain ⟨htest, hnext⟩ := Bool.and_eq_true_iff.mp hp
  obtain ⟨w', hstep, hw'⟩ := (Option.any_eq_true _ _).mp hnext
  obtain ⟨hsound, hsteps⟩ := offers_expire_when_due hrun
  exact ⟨w, w', hrun, hstep, eq_of_beq hw', hsound,
    (hsteps _ _ hstep).2 (World.commitsOn_of_test w _ htest)⟩

/-- Sent again, to expire at 500. -/
def resendFirstOffer : PlacementOp :=
  .transitionOffer ⟨1, 100, .sent, true, 7,
    { OfferChange.none with offerExpiresAt := some (some 500) }, none⟩

/-- The sweep of the instant 100 lists the offer; the offer is renegotiated
before the sweep updates it. -/
def sweptLate : List (Move PlacementOp) :=
  sendFirstOffer ++ [.start (.expireOverdueOffers 100 0), .advance 0 0,
    .start (moveFirstOffer .negotiation)] ++ World.advances 1 0 5 ++
    [.commit 1, .start resendFirstOffer] ++ World.advances 1 0 7 ++ [.commit 1] ++
    World.advances 0 0 3

theorem sweep_expires_what_is_not_due : ∃ w w' : World placementStore PlacementOutcome,
    Run (World.Step placementProgram) (World.quiet .empty) sweptLate w ∧
      World.Step placementProgram w (.commit 0) w' ∧ w.flights.length = 1 ∧
      w.db.offers.map (fun o => (o.state, o.terms.offerExpiresAt)) = [(.sent, some 500)] ∧
      w'.db.offers.map (·.state) = [.expired] ∧ ¬ExpiredWhenDue 100 w.db w'.db := by
  obtain ⟨w, hrun, hp⟩ := World.run_of_moves placementProgram (World.quiet .empty) sweptLate
    (fun w : World placementStore PlacementOutcome => (w.next placementProgram (.commit 0)).any
      fun w' : World placementStore PlacementOutcome => decide (w.flights.length = 1 ∧
        w.db.offers.map (fun o => (o.state, o.terms.offerExpiresAt)) = [(.sent, some 500)] ∧
        w'.db.offers.map (·.state) = [.expired] ∧ ¬ExpiredWhenDue 100 w.db w'.db))
    (by decide +kernel)
  obtain ⟨w', hstep, hw'⟩ := (Option.any_eq_true _ _).mp hp
  exact ⟨w, w', hrun, hstep, of_decide_eq_true hw'⟩

end AramoPlatform.Placement
