import AramoPlatform.Js.Url

/-!
# The return path of a login

A deep link offered at login is checked as a text: it starts with one slash, has
no control or white space, and starts with the base of the consumer's own app.
The browser reads it as an address: it cuts it at `?` and `#`, takes a backslash
for a slash and resolves dot segments, so that the path it lands on may lie
elsewhere on the host.
-/

namespace AramoPlatform.Auth

open Js Lib List

inductive ConsumerType where
  | recruiter
  | portal
  | ingestion
  | platform
  | sign
  | org
  deriving DecidableEq

def consumerAppBase : ConsumerType → JsString
  | .recruiter => js "/ats/"
  | .org => js "/"
  | .sign => js "/"
  | .platform => js "/"
  | .portal => js "/"
  | .ingestion => js "/"

def consumers : List ConsumerType := [.recruiter, .org, .sign, .platform, .portal, .ingestion]

/-- `base.replace(/\/$/, '')`. -/
def withoutSlash (base : JsString) : JsString :=
  if base.getLast? = some Url.slash then base.dropLast else base

/-- The base itself, with or without its slash, or a text behind it. -/
def isInside (base t : JsString) : Bool := t == withoutSlash base || base.isPrefixOf t

def sanitizeReturnTo (raw : Option JsString) (consumer : ConsumerType) : Option JsString :=
  match raw with
  | none => none
  | some raw =>
      if raw.length = 0 ∨ 2000 < raw.length then none
      else if !(js "/").isPrefixOf raw || (js "//").isPrefixOf raw ||
        (js "/\\").isPrefixOf raw then none
      else if raw.any fun u => u ≤ 0x1F || u == 0x7F || isSpace u then none
      else
        let base := consumerAppBase consumer
        if base ≠ js "/" ∧ isInside base raw = false then none
        else if base = js "/" ∧ consumers.any fun c =>
            c != consumer && consumerAppBase c != js "/" &&
              isInside (consumerAppBase c) raw then none
        else some raw

/-- What the redirect reads of the process environment. -/
structure AuthEnv where
  postLoginPathOf : ConsumerType → Option JsString
  postLoginPath : Option JsString
  postLoginRedirect : Option JsString

/-- A variable that is set and not empty. -/
def setTo (v : Option JsString) : Option JsString := v.filter (!·.isEmpty)

def defaultPostLoginPath (env : AuthEnv) (consumer : Option ConsumerType) : JsString :=
  match consumer with
  | some c => (setTo (env.postLoginPathOf c)).getD (consumerAppBase c)
  | none => (setTo env.postLoginPath).getD (js "/")

def ensureLeadingSlash (p : JsString) : JsString := if (js "/").isPrefixOf p then p else js "/" ++ p

/-- `s.replace(/\/+$/, '')`. -/
def withoutSlashes (s : JsString) : JsString := (s.reverse.dropWhile (· == Url.slash)).reverse

def derivePostLoginRedirect (env : AuthEnv) (derivedBase : Option JsString)
    (consumer : Option ConsumerType) (returnTo : Option JsString) : Option JsString :=
  match setTo derivedBase with
  | some base =>
      let safe := consumer.bind fun c => sanitizeReturnTo returnTo c
      some (withoutSlashes base ++
        ensureLeadingSlash (safe.getD (defaultPostLoginPath env consumer)))
  | none => setTo env.postLoginRedirect

/-- A base that the validation of a host gives: a scheme and a host with its port. -/
structure ValidatedBase where
  secure : Bool
  host : JsString
  isHost : Url.IsHost host

namespace ValidatedBase

def scheme (base : ValidatedBase) : JsString := if base.secure then js "https" else js "http"

def text (base : ValidatedBase) : JsString := base.scheme ++ js "://" ++ base.host

end ValidatedBase

/-- The browser lands on the origin of the base, in the consumer's app, and a consumer of the
whole host lands in no other app. -/
def StaysInside (env : AuthEnv) (base : ValidatedBase) (consumer : ConsumerType) (raw : JsString) :
    Prop :=
  ∃ text url home,
    derivePostLoginRedirect env (some base.text) (some consumer) (some raw) = some text ∧
      Url.parse text = some url ∧ Url.parse base.text = some home ∧
      url.scheme = home.scheme ∧ url.authority = home.authority ∧
      isInside (consumerAppBase consumer) (Url.pathText url.path) = true ∧
      (consumerAppBase consumer = js "/" → ∀ c, consumerAppBase c ≠ js "/" →
        isInside (consumerAppBase c) (Url.pathText url.path) = false)

/-! ## What is accepted -/

section Accepted

variable {consumer : ConsumerType} {raw : JsString}

/-- What the check of the text says of an accepted one. -/
structure Accepted (raw : JsString) : Prop where
  rooted : ∃ rest, raw = Url.slash :: rest
  clean : ∀ u ∈ raw, 0x20 < u

theorem accepted_of_sanitized (h : sanitizeReturnTo (some raw) consumer = some raw) :
    Accepted raw := by
  unfold sanitizeReturnTo at h
  dsimp only at h
  split at h
  · cases h
  · split at h
    · cases h
    next hstart =>
      split at h
      · cases h
      next hunits =>
        constructor
        · cases raw with
          | nil => exact absurd rfl hstart
          | cons u rest =>
            have hu : u = Url.slash := by
              by_contra hne
              apply hstart
              have hfalse : (js "/").isPrefixOf (u :: rest) = false := by
                show (Url.slash == u && _) = false
                rw [beq_false_of_ne (Ne.symm hne)]
                rfl
              rw [hfalse]
              rfl
            exact ⟨rest, by rw [hu]⟩
        · intro u hu
          by_contra hsmall
          apply hunits
          apply any_eq_true.mpr
          use u, hu
          have hle : u.toNat ≤ 0x20 := UInt16.le_iff_toNat_le.mp (UInt16.not_lt.mp hsmall)
          by_cases hspace : u.toNat = 0x20
          · have heq : u = 0x20 := UInt16.toNat_inj.mp hspace
            rw [heq]
            rfl
          · have hcontrol : u ≤ 0x1F := UInt16.le_iff_toNat_le.mpr (show u.toNat ≤ 0x1F by omega)
            rw [decide_eq_true hcontrol]
            rfl

theorem ensureLeadingSlash_accepted (h : Accepted raw) : ensureLeadingSlash raw = raw := by
  obtain ⟨rest, rfl⟩ := h.rooted
  apply if_pos
  show (Url.slash == Url.slash && _) = true
  rw [beq_self_eq_true, Bool.true_and]
  rfl

end Accepted

/-! ## Where the browser lands -/

section Landing

variable {base : ValidatedBase} {consumer : ConsumerType} {raw rest : JsString} {env : AuthEnv}

theorem ValidatedBase.scheme_cases (base : ValidatedBase) :
    base.scheme = js "http" ∨ base.scheme = js "https" := by
  unfold ValidatedBase.scheme
  split
  · exact .inr rfl
  · exact .inl rfl

theorem withoutSlashes_text (base : ValidatedBase) : withoutSlashes base.text = base.text := by
  obtain ⟨hne, hunits⟩ := base.isHost
  obtain ⟨init, u, hhost⟩ : ∃ init u, base.host = init ++ [u] :=
    ⟨_, _, (dropLast_append_getLast hne).symm⟩
  have hu : u ≠ Url.slash := by
    rintro rfl
    have hends := (hunits Url.slash (hhost ▸ by simp)).2
    cases hends
  unfold withoutSlashes ValidatedBase.text
  rw [hhost, ← append_assoc, reverse_append, reverse_singleton,
    singleton_append,
    dropWhile_cons_of_neg (by simpa using hu), reverse_cons, reverse_reverse]

theorem redirect_accepted (h : sanitizeReturnTo (some raw) consumer = some raw) :
    derivePostLoginRedirect env (some base.text) (some consumer) (some raw) =
      some (base.text ++ raw) := by
  have hset : setTo (some base.text) = some base.text := by
    have hne : base.text.isEmpty = false := by
      unfold ValidatedBase.text ValidatedBase.scheme
      split <;> rfl
    simp [setTo, Option.filter, hne]
  unfold derivePostLoginRedirect
  rw [hset]
  dsimp only [Option.bind_some]
  rw [h, Option.getD_some, withoutSlashes_text,
    ensureLeadingSlash_accepted (accepted_of_sanitized h)]

theorem parse_text (base : ValidatedBase) (hrest : ∀ u ∈ rest, 0x20 < u)
    (hstart : ∀ u ∈ rest.head?, Url.endsAuthority u = true) :
    Url.parse (base.text ++ rest) = some ⟨base.scheme, base.host, Url.parsePath rest⟩ :=
  Url.parse_absolute base.scheme_cases base.isHost hrest hstart

theorem parsePath_ne_nil (s : JsString) : Url.parsePath s ≠ [] := DotSegments.resolve_ne_nil _ _

theorem inside_root (path : List JsString) (hne : path ≠ []) :
    isInside (js "/") (Url.pathText path) = true := by
  cases path with
  | nil => exact absurd rfl hne
  | cons part path =>
    unfold isInside
    rw [Bool.or_eq_true]
    right
    show (Url.slash == Url.slash && isPrefixOf [] _) = true
    rw [beq_self_eq_true, isPrefixOf_nil_left]
    rfl

theorem inside_ats_iff (s : JsString) :
    isInside (js "/ats/") (Url.pathText (Url.parsePath s)) = true ↔
      DotSegments.AtRoot (js "ats") (Url.pathSteps s) := by
  have hroot : (Url.parsePath s).head? = some (js "ats") ↔
      DotSegments.AtRoot (js "ats") (Url.pathSteps s) := DotSegments.head_resolve_iff (by decide)
  rw [← hroot, ← Url.pathText_inside_iff (parsePath_ne_nil s)
    (fun part h => Url.slash_notMem_parsePath h) (by decide)]
  unfold isInside
  rw [Bool.or_eq_true, beq_iff_eq, isPrefixOf_iff_prefix]
  exact Iff.rfl

theorem appBase_cases (c : ConsumerType) :
    c = .recruiter ∧ consumerAppBase c = js "/ats/" ∨ c ≠ .recruiter ∧
      consumerAppBase c = js "/" := by
  cases c
  · exact .inl ⟨rfl, rfl⟩
  all_goals exact .inr ⟨nofun, rfl⟩

/-- **An accepted return path stays inside the app if and only if, read as a path, it has `ats`
at its root for a recruiter and for nobody else.** -/
theorem return_path_stays_iff (env : AuthEnv) (base : ValidatedBase)
    (h : sanitizeReturnTo (some raw) consumer = some raw) :
    StaysInside env base consumer raw ↔
      (consumer = .recruiter ↔ DotSegments.AtRoot (js "ats") (Url.pathSteps raw)) := by
  have haccepted := accepted_of_sanitized h
  have hstart : ∀ u ∈ raw.head?, Url.endsAuthority u = true := by
    obtain ⟨rest, rfl⟩ := haccepted.rooted
    intro u hu
    rw [← Option.some.inj hu]
    rfl
  have hurl := parse_text base haccepted.clean hstart
  have hhome : Url.parse (base.text ++ []) = some ⟨base.scheme, base.host, Url.parsePath []⟩ :=
    parse_text base (fun u hu => absurd hu not_mem_nil) fun u hu => by cases hu
  rw [append_nil] at hhome
  constructor
  · rintro ⟨text, url, home, hredirect, hparse, -, -, -, hin, hout⟩
    rw [redirect_accepted h] at hredirect
    obtain rfl := Option.some.inj hredirect
    rw [hurl] at hparse
    obtain rfl := Option.some.inj hparse
    rcases appBase_cases consumer with ⟨hrecruiter, hbase⟩ | ⟨hother, hbase⟩
    · rw [hbase] at hin
      exact iff_of_true hrecruiter ((inside_ats_iff raw).mp hin)
    · have haway : isInside (js "/ats/") (Url.pathText (Url.parsePath raw)) = false :=
        hout hbase .recruiter (by decide)
      apply iff_of_false hother
      intro hroot
      rw [(inside_ats_iff raw).mpr hroot] at haway
      cases haway
  · intro hiff
    refine ⟨_, _, _, redirect_accepted h, hurl, hhome, rfl, rfl, ?_, ?_⟩
    · rcases appBase_cases consumer with ⟨hrecruiter, hbase⟩ | ⟨-, hbase⟩
      · rw [hbase]
        exact (inside_ats_iff raw).mpr (hiff.mp hrecruiter)
      · rw [hbase]
        exact inside_root _ (parsePath_ne_nil raw)
    · intro hbase c hc
      have hother : consumer ≠ .recruiter := by
        rintro rfl
        exact absurd hbase (by decide)
      rcases appBase_cases c with ⟨-, happ⟩ | ⟨-, happ⟩
      · rw [happ, Bool.eq_false_iff]
        exact fun hin => hother (hiff.mpr ((inside_ats_iff raw).mp hin))
      · exact absurd happ hc

/-- A deep link of the tenant site, with nothing set in the environment. -/
def plainAuthEnv : AuthEnv := ⟨fun _ => none, none, none⟩

def tenantBase : ValidatedBase where
  secure := true
  host := js "astre.aramo.ai"
  isHost := by
    have hunits : (js "astre.aramo.ai").all (fun u => 0x20 < u && !Url.endsAuthority u) = true := by
      decide
    exact ⟨by decide, by simpa using hunits⟩

theorem requisition_stays : StaysInside plainAuthEnv tenantBase .recruiter
    (js "/ats/requisitions/123") ↔
    (ConsumerType.recruiter = .recruiter ↔
      DotSegments.AtRoot (js "ats") (Url.pathSteps (js "/ats/requisitions/123"))) :=
  return_path_stays_iff plainAuthEnv tenantBase (by decide)

/-- A recruiter leaves the app by a dot segment. -/
theorem recruiter_leaves_ats : ¬ ∀ (env : AuthEnv) (base : ValidatedBase) (consumer : ConsumerType)
    (raw : JsString), sanitizeReturnTo (some raw) consumer = some raw →
      StaysInside env base consumer raw := by
  intro h
  have haccepted : sanitizeReturnTo (some (js "/ats/../org")) .recruiter =
    some (js "/ats/../org") := by
    decide
  obtain ⟨text, url, home, hredirect, hparse, -, -, -, hin, -⟩ :=
    h plainAuthEnv tenantBase .recruiter _ haccepted
  rw [redirect_accepted haccepted] at hredirect
  obtain rfl := Option.some.inj hredirect
  have hurl : Url.parse (tenantBase.text ++ js "/ats/../org") =
      some ⟨js "https", js "astre.aramo.ai", [js "org"]⟩ := by decide
  rw [hurl] at hparse
  obtain rfl := Option.some.inj hparse
  revert hin
  decide

end Landing

end AramoPlatform.Auth
