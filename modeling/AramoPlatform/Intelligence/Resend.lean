import AramoPlatform.Intelligence.SettledSnapshot

/-!
# Sending a snapshot again

The same content under a new event id adds and supersedes no claim and changes no
identifier. It opens no conflict when the contradiction that a known reference
has with the anchors of other sources was opened the first time; a reference
that came in through several subjects has one under another signature.
-/

namespace AramoPlatform.Intelligence

open Js Lib List

/-! ## Claims -/

section Claims

variable {host : Host} {db : GoldenDb} {referenceId : Nat}

/-- The live hashes of a reference are those of the drafts that are not revoked. -/
def ClaimsSettled (db : GoldenDb) (referenceId : Nat) (hashes : List JsString) : Prop :=
  ∀ hash, hash ∈ (db.liveAssertionsOf referenceId).map (·.contentHash) ↔
    hash ∈ hashes ∧ hash ∉ db.revokedHashesOf referenceId

theorem SnapshotWritten.revokedHashes {drafts : List AssertionDraft} {db' : GoldenDb}
    (h : SnapshotWritten db referenceId drafts db') {hash : JsString} :
    hash ∈ db'.revokedHashesOf referenceId ↔ hash ∈ db.revokedHashesOf referenceId := by
  rw [mem_revokedHashesOf, mem_revokedHashesOf]
  constructor
  · rintro ⟨x, hx, hsource, hrevoked, hhash⟩
    exact ⟨x, h.revoked hx hrevoked, hsource, hrevoked, hhash⟩
  · rintro ⟨x, hx, hsource, hrevoked, hhash⟩
    obtain ⟨rows, hmem, -⟩ := h.rows
    refine ⟨x, (hmem x).mpr (.inl ⟨hx, fun habsent => ?_⟩), hsource, hrevoked, hhash⟩
    -- an absent claim was live
    have hlive := (mem_liveAssertionsOf.mp (mem_absentFrom.mp habsent).1).2.2
    rw [hrevoked] at hlive
    cases hlive

theorem SnapshotWritten.settled {drafts : List AssertionDraft} {db' : GoldenDb}
    (h : SnapshotWritten db referenceId drafts db') (horder : ClaimsInOrder db) :
    ClaimsSettled db' referenceId (drafts.map (·.contentHash)) := by
  intro hash
  rw [h.liveHashes horder, h.revokedHashes]

theorem ClaimsInOrder.liveHashes_nodup (h : ClaimsInOrder db) (referenceId : Nat) :
    ((db.liveAssertionsOf referenceId).map (·.contentHash)).Nodup := by
  have hids : ((db.liveAssertionsOf referenceId).map (·.id)).Nodup :=
    h.keyed.nodup.sublist (filter_sublist.map _)
  refine List.Nodup.map_on ?_ hids.of_map
  intro a ha b hb hhash
  obtain ⟨ha, hsource, hlive⟩ := mem_liveAssertionsOf.mp ha
  obtain ⟨hb, hsource', hlive'⟩ := mem_liveAssertionsOf.mp hb
  exact h.live a ha b hb referenceId ⟨hsource, hsource', hhash⟩ hlive hlive'

theorem writeAssertions_of_settled (req : TalentIngestRequest) (actor : JsString) (subjectId : Nat)
    {drafts : List AssertionDraft}
    (h : ClaimsSettled db referenceId (drafts.map (·.contentHash))) :
    writeAssertions req actor subjectId referenceId (db.liveAssertionsOf referenceId)
      (db.revokedHashesOf referenceId) drafts db = (0, 0, db) := by
  have hnew : newDrafts (db.liveAssertionsOf referenceId) (db.revokedHashesOf referenceId) drafts =
      [] := by
    refine eq_nil_iff_forall_not_mem.mpr fun d hd => ?_
    obtain ⟨hdraft, hlive, hrevoked⟩ := mem_newDrafts_hashes.mp (mem_map_of_mem hd)
    exact hlive ((h d.contentHash).mpr ⟨hdraft, hrevoked⟩)
  have habsent : absentFrom (db.liveAssertionsOf referenceId) drafts = [] := by
    refine eq_nil_iff_forall_not_mem.mpr fun a ha => ?_
    obtain ⟨hlive, hdraft⟩ := mem_absentFrom.mp ha
    exact hdraft ((h a.contentHash).mp (mem_map_of_mem hlive)).1
  unfold writeAssertions
  rw [hnew, habsent]
  rfl

end Claims

theorem writeAssertions_inbox (req : TalentIngestRequest) (actor : JsString)
    (subjectId referenceId : Nat) (live : List Assertion) (revoked : List JsString)
    (drafts : List AssertionDraft) (db : GoldenDb) :
    (writeAssertions req actor subjectId referenceId live revoked drafts db).2.2.inbox =
      db.inbox := by
  refine (foldl_frame (g := GoldenDb.inbox) ?_ _ _).trans ((foldl_frame (g := GoldenDb.inbox) ?_
    _ _).trans (foldl_frame (g := fun acc : List (Nat × AssertionType) × GoldenDb =>
      acc.2.inbox) ?_ _ _))
  · intro acc old
    unfold linkReplacement
    split
    · split <;> rfl
    · rfl
  · exact fun _ _ => rfl
  · exact fun _ _ => rfl

/-! ## The second time -/

/-- The same content under another event id, at another time. -/
def resend (req : TalentIngestRequest) (eventId : JsString) (occurredAt : Nat) :
    TalentIngestRequest :=
  { req with sourceEventId := eventId, occurredAt := occurredAt }

theorem draftHashes_resend (host : Host) (req : TalentIngestRequest) (eventId : JsString)
    (occurredAt : Nat) :
      (toAssertionDrafts host (resend req eventId occurredAt)).map (·.contentHash) =
      (toAssertionDrafts host req).map (·.contentHash) := by
  refine hashes_firstOfHash ?_
  have hname : (nameDraft host (resend req eventId occurredAt)).map (·.contentHash) =
      (nameDraft host req).map (·.contentHash) := by
    unfold nameDraft resend
    dsimp only
    split
    · split <;> rfl
    · rfl
  rw [map_append, map_append, hname]
  rfl

/-- The ingest goes through and writes to the inbox only. -/
def ChangesNothing (env : GoldenEnv) (db : GoldenDb) (req : TalentIngestRequest)
    (principal : IngestPrincipal) (now : Nat) : Prop :=
  ∃ response db', ingest env.host env.tokenKey db req principal now = .ok (response, db') ∧
    db' = { db with inbox := db'.inbox } ∧ response.assertionsAdded = 0 ∧
    response.assertionsSuperseded = 0 ∧ response.conflictsOpened = 0 ∧ response.changed = false

/-- What the anchors of other sources must be like before the snapshot comes in. -/
def AnchorsSettle (env : GoldenEnv) (db : GoldenDb) (req : TalentIngestRequest) : Prop :=
  ∀ input facts, toResolutionInput env.host env.tokenKey req = .ok input →
    gatherFacts db input = .ok facts → SettlesAtOnce env.host db input facts

section Second

variable {env : GoldenEnv} {db db₁ : GoldenDb} {req : TalentIngestRequest}
  {principal : IngestPrincipal} {now : Nat} {response : TalentIngestResponse}

theorem settled_of_ingest (horder : GoldenInOrder db)
    (hfirst : ingest env.host env.tokenKey db req principal now = .ok (response, db₁))
    (hnew : response.replayed = false) :
    req.tuple.sourceSystemId = principal.sourceSystemId ∧
    ∃ input facts, toResolutionInput env.host env.tokenKey req = .ok input ∧
      gatherFacts db input = .ok facts ∧
      SnapshotSettled db input (placedOn env.host db facts) (referencedAs env.host db facts) db₁ ∧
      ClaimsSettled db₁ (referencedAs env.host db facts)
        ((toAssertionDrafts env.host req).map (·.contentHash)) ∧
      (∀ signature, signature ∈ openSignatures db₁ (placedOn env.host db facts) ↔
        signature ∈ openSignatures db (placedOn env.host db facts) ∨
          signature ∈ (decideResolution env.host facts).conflicts.map (·.signature)) ∧
      db₁.inboxEvent? req.sourceEventId =
        some ⟨req.sourceEventId, req.tuple, .talentSnapshot response⟩ := by
  obtain ⟨hsystem, input, hinput, ⟨_, stored, -, -, -, hreplay⟩ | ⟨hunknown, hout⟩⟩ :=
    ingest_eq_ok.mp hfirst
  · obtain rfl := (Prod.ext_iff.mp hreplay).1
    cases hnew
  refine ⟨hsystem, input, ?_⟩
  obtain ⟨facts, hfacts, hfinish, hsame⟩ := resolved_of_applySnapshot hout
  have htables := applyDecision_spec env.host horder.identities hfacts now
  have huntouched := untouched_applyDecision env.host db input now facts
  have hopen := mem_openSignatures_applyDecision env.host db input facts now
  rw [applyDecision_subjectId, applyDecision_referenceId] at htables
  have hsubject := applyDecision_subjectId env.host db input facts now
  have hreference := applyDecision_referenceId env.host db input facts now
  have hinbox := applyDecision_inbox env.host db input now facts
  generalize applyDecision env.host db input now facts = resolved
    at hinbox hfinish hsame htables huntouched hopen hsubject hreference
  have hmid := horder.claims.frame huntouched
  obtain ⟨rfl, rfl⟩ := Prod.ext_iff.mp hfinish
  refine ⟨facts, hinput, hfacts, htables.settledSnapshot hsame, ?_, ?_, ?_⟩
  · have hwritten := snapshotWritten req (ingestActor principal) resolved.1.subjectId
      resolved.1.referenceId hmid.keyed (toAssertionDrafts env.host req)
    rw [← hreference]
    exact hwritten.settled hmid
  · intro signature
    rw [← hopen]
    simp only [openSignatures, GoldenDb.openConflictsOf, hsame.conflicts]
  · show (_ ++ [_] : List IntelligenceInbox).find? _ = _
    rw [writeAssertions_inbox, hinbox, find?_append,
      show db.inbox.find? (·.eventId == req.sourceEventId) = none from hunknown]
    simp [finishSnapshot]

theorem ingest_resend (horder : GoldenInOrder db)
    (hfirst : ingest env.host env.tokenKey db req principal now = .ok (response, db₁))
    (hnew : response.replayed = false) {eventId : JsString} (hevent :
      db₁.inboxEvent? eventId = none)
    {principal' : IngestPrincipal} (hsystem' : principal'.sourceSystemId = principal.sourceSystemId)
    (occurredAt now' : Nat) :
    ∃ input facts, toResolutionInput env.host env.tokenKey req = .ok input ∧
      gatherFacts db input = .ok facts ∧
      ingest env.host env.tokenKey db₁ (resend req eventId occurredAt) principal' now' =
        .ok (finishSnapshot env.host
          (applyDecision env.host db₁ input now' (resentFacts db₁ input
            (placedOn env.host db facts) (referencedAs env.host db facts))).2
          (resend req eventId occurredAt) principal'
          (applyDecision env.host db₁ input now' (resentFacts db₁ input
            (placedOn env.host db facts) (referencedAs env.host db facts))).1) := by
  obtain ⟨hsystem, input, facts, hinput, hfacts, hsettled, -, -, -⟩ :=
    settled_of_ingest horder hfirst hnew
  refine ⟨input, facts, hinput, hfacts, ingest_eq_ok.mpr ⟨?_, input, hinput, .inr ⟨hevent, ?_⟩⟩⟩
  · exact hsystem.trans hsystem'.symm
  · simp only [applySnapshot, resolve, hsettled.gatherFacts_eq hfacts, Bind.bind, Except.bind]

/-- **Sending a snapshot again changes nothing** exactly when the anchors of
other sources settle at once. -/
theorem changesNothing_iff (horder : GoldenInOrder db)
    (hfirst : ingest env.host env.tokenKey db req principal now = .ok (response, db₁))
    (hnew : response.replayed = false) {eventId : JsString} (hevent :
      db₁.inboxEvent? eventId = none)
    {principal' : IngestPrincipal} (hsystem' : principal'.sourceSystemId = principal.sourceSystemId)
    (occurredAt now' : Nat) :
    ChangesNothing env db₁ (resend req eventId occurredAt) principal' now' ↔
      AnchorsSettle env db req := by
  obtain ⟨input, facts, hinput, hfacts, hsecond⟩ :=
    ingest_resend horder hfirst hnew hevent hsystem' occurredAt now'
  obtain ⟨-, input', facts', hinput', hfacts', hsettled, hclaims, hopen, -⟩ :=
    settled_of_ingest horder hfirst hnew
  obtain rfl := Except.ok.inj (hinput.symm.trans hinput')
  obtain rfl := Except.ok.inj (hfacts.symm.trans hfacts')
  -- the condition, over the conflicts that are open after the first time
  have hcondition : AnchorsSettle env db req ↔ ∀ c ∈ anchorConflict env.host
      ⟨referencedAs env.host db facts, placedOn env.host db facts, snapshotOf input⟩
      (foreignMatches db input (referencedAs env.host db facts)),
        c.signature ∈ openSignatures db₁ (placedOn env.host db facts) := by
    have hat : AnchorsSettle env db req ↔ SettlesAtOnce env.host db input facts := by
      constructor
      · exact fun h => h input facts hinput hfacts
      · intro h input' facts' hinput' hfacts'
        obtain rfl := Except.ok.inj (hinput.symm.trans hinput')
        obtain rfl := Except.ok.inj (hfacts.symm.trans hfacts')
        exact h
    rw [hat]
    exact forall₂_congr fun c _ => (hopen c.signature).symm
  rw [hcondition]
  constructor
  · rintro ⟨second, db₂, hrun, -, -, -, hnone, -⟩ c hc
    rw [hsecond] at hrun
    have hopened := congrArg TalentIngestResponse.conflictsOpened
      (Prod.ext_iff.mp (Except.ok.inj hrun)).1
    have hlength := hsettled.conflictsOpened_eq env.host hfacts now'
    have hzero := (hlength.symm.trans hopened).trans hnone
    have hseen := filter_eq_nil_iff.mp (eq_nil_of_length_eq_zero hzero) c hc
    simpa using hseen
  · intro hseen
    rw [hsettled.applyDecision_eq hfacts now' hseen] at hsecond
    rw [← draftHashes_resend env.host req eventId occurredAt] at hclaims
    have hwritten := writeAssertions_of_settled (resend req eventId occurredAt)
      (ingestActor principal') (placedOn env.host db facts) hclaims
    simp only [finishSnapshot, hwritten] at hsecond
    exact ⟨_, _, hsecond, rfl, rfl, rfl, rfl, rfl⟩

end Second

/-! ## Replays -/

section Replays

variable {env : GoldenEnv} {db : GoldenDb}

theorem ingest_replayed {req : TalentIngestRequest} {principal : IngestPrincipal} {now : Nat}
    {input : ResolutionInput} {row : IntelligenceInbox} {stored : TalentIngestResponse}
    (hsystem : req.tuple.sourceSystemId = principal.sourceSystemId)
    (hinput : toResolutionInput env.host env.tokenKey req = .ok input)
    (hknown : db.inboxEvent? req.sourceEventId = some row) (htuple : row.tuple = req.tuple)
    (hkind : row.response = .talentSnapshot stored) :
    ingest env.host env.tokenKey db req principal now =
      .ok ({ stored with replayed := true }, db) :=
  ingest_eq_ok.mpr ⟨hsystem, input, hinput, .inl ⟨row, stored, hknown, htuple, hkind, rfl⟩⟩

theorem erase_replayed {req : TalentErasedRequest} {principal : IngestPrincipal} {now : Nat}
    {row : IntelligenceInbox} {stored : TalentErasedResponse}
    (hsystem : req.tuple.sourceSystemId = principal.sourceSystemId)
    (hknown : db.inboxEvent? req.sourceEventId = some row) (htuple : row.tuple = req.tuple)
    (hkind : row.response = .talentErased stored) :
    erase db req principal now = .ok ({ stored with replayed := true }, db) := by
  simp [erase, replay, erasureOutcome, require, hsystem, hknown, htuple, hkind, Bind.bind,
    Except.bind]

end Replays

/-! ## Over runs -/

theorem tuple_of_toResolutionInput {host : Host} {tokenKey : Option JsString}
    {req : TalentIngestRequest} {input : ResolutionInput}
    (h : toResolutionInput host tokenKey req = .ok input) : input.tuple = req.tuple := by
  simp only [toResolutionInput, bind_eq_ok, Except.ok.injEq] at h
  obtain ⟨_, -, rfl⟩ := h
  rfl

/-- A known event is answered with the stored response, and nothing is written. -/
structure AnswersFromInbox (env : GoldenEnv) (db : GoldenDb) : Prop where
  snapshot : ∀ (req : TalentIngestRequest) (principal : IngestPrincipal) (now : Nat)
    (input : ResolutionInput) (stored : TalentIngestResponse),
    req.tuple.sourceSystemId = principal.sourceSystemId →
    toResolutionInput env.host env.tokenKey req = .ok input →
    db.inboxEvent? req.sourceEventId =
      some ⟨req.sourceEventId, req.tuple, .talentSnapshot stored⟩ →
    ingest env.host env.tokenKey db req principal now =
      .ok ({ stored with replayed := true }, db)
  erased : ∀ (req : TalentErasedRequest) (principal : IngestPrincipal) (now : Nat)
    (stored : TalentErasedResponse), req.tuple.sourceSystemId = principal.sourceSystemId →
    db.inboxEvent? req.sourceEventId =
      some ⟨req.sourceEventId, req.tuple, .talentErased stored⟩ →
    erase db req principal now = .ok ({ stored with replayed := true }, db)

theorem answersFromInbox (env : GoldenEnv) (db : GoldenDb) : AnswersFromInbox env db :=
  ⟨fun _ _ _ _ _ hsystem hinput hknown => ingest_replayed hsystem hinput hknown rfl rfl,
    fun _ _ _ _ hsystem hknown => erase_replayed hsystem hknown rfl rfl⟩

/-- The live claims of a reference are those of the snapshot that were never
revoked, each once. -/
structure ClaimsOfSnapshot (env : GoldenEnv) (ops : List GoldenOp) (db : GoldenDb)
    (req : TalentIngestRequest) (referenceId : Nat) : Prop where
  once : ((db.liveAssertionsOf referenceId).map (·.contentHash)).Nodup
  exact : ∀ hash, hash ∈ (db.liveAssertionsOf referenceId).map (·.contentHash) ↔
    hash ∈ (toAssertionDrafts env.host req).map (·.contentHash) ∧
      ¬EverRevoked env ops db referenceId hash

/-- **A snapshot is a fixed point**: in every reachable state it leaves exactly its
claims, a known event is answered from the inbox, and the same content under a
new event changes nothing if and only if the anchors of other sources settle at once. -/
theorem resending_changes_nothing_iff {env : GoldenEnv} {ops : List GoldenOp} {db db₁ : GoldenDb}
    {req : TalentIngestRequest} {principal : IngestPrincipal} {now : Nat}
    {response : TalentIngestResponse} (hrun : Run (GoldenStep env) .empty ops db)
    (hfirst : ingest env.host env.tokenKey db req principal now = .ok (response, db₁))
    (hnew : response.replayed = false) :
    (∃ reference, db₁.referenceByTuple? req.tuple = some reference ∧
      ClaimsOfSnapshot env (ops ++ [.ingest req principal now]) db₁ req reference.id) ∧
    (db₁.inboxEvent? req.sourceEventId =
      some ⟨req.sourceEventId, req.tuple, .talentSnapshot response⟩ ∧ AnswersFromInbox env db) ∧
    ∀ (eventId : JsString) (principal' : IngestPrincipal) (occurredAt now' : Nat),
      db₁.inboxEvent? eventId = none → principal'.sourceSystemId = principal.sourceSystemId →
      (ChangesNothing env db₁ (resend req eventId occurredAt) principal' now' ↔
        AnchorsSettle env db req) := by
  have horder := goldenInOrder_of_run hrun
  have hstep : GoldenStep env db (.ingest req principal now) db₁ :=
    map_eq_ok.mpr ⟨_, hfirst, rfl⟩
  have hrun₁ := hrun.snoc hstep
  obtain ⟨-, input, facts, hinput, -, hsettled, hclaims, -, hinbox⟩ :=
    settled_of_ingest horder hfirst hnew
  refine ⟨?_, ⟨hinbox, answersFromInbox env db⟩, ?_⟩
  · obtain ⟨r, hfind, hid, -⟩ := hsettled.placed.placed
    refine ⟨r, ?_, (goldenInOrder_of_run hrun₁).claims.liveHashes_nodup r.id, fun hash => ?_⟩
    · rwa [tuple_of_toResolutionInput hinput] at hfind
    · rw [everRevoked_iff hrun₁, hid]
      exact hclaims hash
  · intro eventId principal' occurredAt now' hevent hsystem'
    exact changesNothing_iff horder hfirst hnew hevent hsystem' occurredAt now'

/-- A snapshot with verified e-mail addresses. -/
def anchorSnapshot (tuple : SourceTuple) (eventId : String) (emails : List String) :
    TalentIngestRequest :=
  ⟨tuple, js eventId, 0, ⟨none, emails.map fun e =>
    ⟨js e, false, some ⟨true, some (js "EMAIL_OTP"), some (js "ats"), some 0⟩⟩, [], []⟩, []⟩

/-- Bob's address is bound to him, and Ann is known by her name. -/
def bobsAddress : List GoldenOp :=
  [.ingest (anchorSnapshot ⟨js "ATS", js "T2", js "bob"⟩ "b" ["bob@x.io"]) anAts 0,
    .ingest (nameSnapshot ann "a1") anAts 0]

/-- Ann's source vouches for Bob's address: a conflict is opened once, and sending the
snapshot again changes nothing. -/
theorem resending_changes_nothing_for_a_bound_address : ∃ db response db₁,
    Run (GoldenStep plainEnv) .empty bobsAddress db ∧
      ingest plainHost none db (anchorSnapshot ann "a2" ["bob@x.io"]) anAts 0 =
        .ok (response, db₁) ∧
      response.conflictsOpened = 1 ∧
      ChangesNothing plainEnv db₁ (resend (anchorSnapshot ann "a2" ["bob@x.io"]) (js "a3") 5)
        anAts 6 := by
  obtain ⟨db, hrun, hdb⟩ := goldenRun_of_exec plainEnv .empty bobsAddress (fun db =>
    ((ingest plainHost none db (anchorSnapshot ann "a2" ["bob@x.io"]) anAts 0).toOption.any
      fun out => !out.1.replayed && (out.2.inboxEvent? (js "a3")).isNone &&
        out.1.conflictsOpened == 1) &&
    (toResolutionInput plainHost none (anchorSnapshot ann "a2" ["bob@x.io"])).toOption.all
      fun input => (gatherFacts db input).toOption.all fun facts =>
        (anchorConflict plainHost ⟨referencedAs plainHost db facts, placedOn plainHost db facts,
          snapshotOf input⟩ (foreignMatches db input (referencedAs plainHost db facts))).all
          fun c => ((decideResolution plainHost facts).conflicts.map (·.signature)).contains
            c.signature) (by decide +kernel)
  obtain ⟨hout, hsettles⟩ := Bool.and_eq_true_iff.mp hdb
  cases hfirst : ingest plainHost none db (anchorSnapshot ann "a2" ["bob@x.io"]) anAts 0 with
  | error e =>
    rw [hfirst] at hout
    cases hout
  | ok first =>
    obtain ⟨response, db₁⟩ := first
    rw [hfirst] at hout
    simp only [Except.toOption, Option.any_some, Bool.and_eq_true, Bool.not_eq_true',
      Option.isNone_iff_eq_none, beq_iff_eq] at hout
    obtain ⟨⟨hnew, hevent⟩, hopened⟩ := hout
    obtain ⟨-, -, hresend⟩ := resending_changes_nothing_iff hrun hfirst hnew
    refine ⟨db, response, db₁, hrun, hfirst, hopened,
      (hresend (js "a3") anAts 5 6 hevent rfl).mpr ?_⟩
    -- the conflict with Bob is planned when the snapshot comes in
    intro input facts hinput hfacts c hc
    rw [show toResolutionInput plainHost none _ = .ok input from hinput] at hsettles
    simp only [Except.toOption, Option.all_some, hfacts] at hsettles
    have hplanned := all_eq_true.mp hsettles c hc
    exact .inr (contains_iff_mem.mp hplanned)

/-! ### Several subjects -/

/-- Two talents of other tenants, each with an address of their own. -/
def twoAnchors : List GoldenOp :=
  [.ingest (anchorSnapshot ⟨js "ATS", js "T2", js "bob"⟩ "b" ["bob@x.io"]) anAts 0,
    .ingest (anchorSnapshot ⟨js "ATS", js "T3", js "cat"⟩ "c" ["cat@x.io"]) anAts 0]

/-- A third one claims both addresses, twice: a further conflict is opened. -/
theorem resent_contradiction_opens_again :
    ¬ ∀ (env : GoldenEnv) (ops : List GoldenOp) (db db₁ : GoldenDb) (req : TalentIngestRequest)
      (principal : IngestPrincipal) (now : Nat) (response : TalentIngestResponse),
      Run (GoldenStep env) .empty ops db →
      ingest env.host env.tokenKey db req principal now = .ok (response, db₁) →
      response.replayed = false → ∀ eventId now', db₁.inboxEvent? eventId = none →
        ChangesNothing env db₁ (resend req eventId req.occurredAt) principal now' := by
  intro h
  obtain ⟨db, hrun, hdb⟩ := goldenRun_of_exec plainEnv .empty twoAnchors
    (fun db => (ingest plainHost none db (anchorSnapshot ann "a" ["bob@x.io", "cat@x.io"])
      anAts 0).toOption.any
      fun first => !first.1.replayed && (first.2.inboxEvent? (js "a2")).isNone &&
        (ingest plainHost none first.2
          (resend (anchorSnapshot ann "a" ["bob@x.io", "cat@x.io"]) (js "a2") 0)
          anAts 0).toOption.any fun second => second.1.changed) (by decide +kernel)
  cases hfirst : ingest plainHost none db (anchorSnapshot ann "a" ["bob@x.io", "cat@x.io"])
      anAts 0 with
  | error e =>
    rw [hfirst] at hdb
    cases hdb
  | ok first =>
    obtain ⟨response, db₁⟩ := first
    rw [hfirst] at hdb
    simp only [Except.toOption, Option.any_some, Bool.and_eq_true, Bool.not_eq_true',
      Option.isNone_iff_eq_none] at hdb
    obtain ⟨⟨hnew, hevent⟩, hchanged⟩ := hdb
    obtain ⟨second, db₂, hsecond, -, -, -, -, hsame⟩ := h plainEnv twoAnchors db db₁ _ anAts 0
      response hrun hfirst hnew (js "a2") 0 hevent
    rw [show ingest plainHost none db₁
      (resend (anchorSnapshot ann "a" ["bob@x.io", "cat@x.io"]) (js "a2") 0) anAts 0 =
        .ok (second, db₂) from hsecond] at hchanged
    rw [show (some (second, db₂)).any (fun second => second.1.changed) = second.changed from rfl,
      hsame] at hchanged
    cases hchanged

end AramoPlatform.Intelligence
