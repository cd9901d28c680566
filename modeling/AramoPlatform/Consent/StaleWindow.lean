import AramoPlatform.Consent.StaleScan
import AramoPlatform.Js.UtcDate

/-!
# The stale window

The check and the scan set a month back by twelve on the date of the moment. On
29 February the month of the year before has no such day, and the cutoff rolls
over to 1 March: what was granted on that day, at an earlier time of the day, is
stale for the rest of the leap day and is not at the start of the next.
-/

namespace AramoPlatform.Consent

open Js Lib

/-- The runtime check's `isStale`, at a date of its own. -/
def isStaleAt (occurredAt now : Date) : Bool :=
  (now.setMonth (now.getMonth - stalenessWindowMonths)).any fun cutoff =>
    decide (occurredAt.time < cutoff.time)

def staleConsentWindowMonths : Int := 12

/-- The cutoff of `process`. A scheduled job overrides nothing. -/
def scanCutoff (overrideWindowMonths : Option Int) (computedAt : Date) : Option Date :=
  let windowMonths := overrideWindowMonths.getD staleConsentWindowMonths
  computedAt.setMonth (computedAt.getMonth - windowMonths)

/-- The grants that `process` expires: none when the cutoff is invalid, since
`toISOString` throws in the first log line. -/
def scanExpires (overrideWindowMonths : Option Int) (computedAt : Date) (grants : List Date) :
    List Date :=
  match scanCutoff overrideWindowMonths computedAt with
  | none => []
  | some cutoff => grants.filter fun g => !decide (cutoff.time ≤ g.time)

/-- The same day and time of the month twelve months later, or the last day of that
month when it has no such day. -/
def anniversary (g : Date) : Int :=
  let year := g.civil.year + 1
  dayNumber year g.civil.month (min g.civil.date (daysInMonth year g.civil.month)) * msPerDay +
    g.timeInDay

/-- The moment is on 29 February, and the grant of 1 March of the year before, at an
earlier time of the day. -/
def RolledOver (g now : Date) : Prop :=
  now.civil.month = 1 ∧ now.civil.date = 29 ∧
    g.civil = ⟨now.civil.year - 1, 2, 1⟩ ∧ g.timeInDay < now.timeInDay

instance (g now : Date) : Decidable (RolledOver g now) := inferInstanceAs (Decidable (_ ∧ _))

/-- What is wanted of the check and of the scan at one moment. -/
structure TwelveMonths (g now : Date) : Prop where
  neverEarly : isStaleAt g now = true → anniversary g ≤ now.time
  scanAgrees : ∀ grants, scanExpires none now grants = grants.filter fun g => isStaleAt g now

/-! ## The day of the cutoff -/

/-- The time that `setMonth` clips. -/
def cutoffTime (now : Date) : Int :=
  (marchDays (yearOf now.day - 1) + dayOfYear now.day - epochDays) * msPerDay + now.timeInDay

/-- Twelve months back is the same number of days after 1 March of the year before. -/
theorem setMonth_year (now : Date) :
    now.setMonth (now.getMonth - 12) = timeClip (cutoffTime now) := by
  have hyears := dayNumber_years now.civil.year now.civil.month now.civil.date (-1)
  have hday := dayNumber_civil now.day (-1)
  unfold Date.setMonth Date.getMonth cutoffTime
  rw [show now.civil.month - 12 = now.civil.month + 12 * -1 by omega, hyears]
  exact congrArg (fun day => timeClip (day * msPerDay + now.timeInDay)) hday

theorem cutoffTime_le (now : Date) : cutoffTime now ≤ now.time := by
  have hday := marchDays_yearOf now.day
  have hgap := (marchDays_gap (yearOf now.day - 1)).1
  rw [Int.sub_add_cancel] at hgap
  rw [now.day_timeInDay]
  unfold cutoffTime msPerDay
  omega

theorem isStaleAt_iff {g now : Date} : isStaleAt g now = true ↔ g.time < cutoffTime now := by
  have hset : isStaleAt g now = (timeClip (cutoffTime now)).any fun cutoff =>
      decide (g.time < cutoff.time) := congrArg (Option.any _) (setMonth_year now)
  rw [hset]
  cases hclip : timeClip (cutoffTime now) with
  | none =>
    have hrange := timeClip_eq_none.mp hclip
    have hle := cutoffTime_le now
    obtain ⟨hnow, hnow'⟩ := now.valid
    obtain ⟨hg, hg'⟩ := g.valid
    simp only [Option.any_none, Bool.false_eq_true, false_iff]
    omega
  | some cutoff =>
    rw [← timeClip_eq_some.mp hclip]
    simp

/-- **The scan expires what the check finds stale.** -/
theorem scanExpires_eq (now : Date) (grants : List Date) :
    scanExpires none now grants = grants.filter fun g => isStaleAt g now := by
  have hcutoff : scanCutoff none now = timeClip (cutoffTime now) := setMonth_year now
  unfold scanExpires
  rw [hcutoff]
  cases hclip : timeClip (cutoffTime now) with
  | none =>
    symm
    apply List.filter_eq_nil_iff.mpr
    intro g _
    have hset : isStaleAt g now = (timeClip (cutoffTime now)).any fun cutoff =>
        decide (g.time < cutoff.time) := congrArg (Option.any _) (setMonth_year now)
    rw [hset, hclip]
    simp
  | some cutoff =>
    dsimp only
    apply List.filter_congr
    intro g _
    rw [Bool.eq_iff_iff, isStaleAt_iff, ← timeClip_eq_some.mp hclip]
    simp

/-! ## Anniversaries -/

theorem anniversary_eq (g : Date) :
    anniversary g = (marchDays (yearOf g.day + 1) +
      min (dayOfYear g.day) 364 - epochDays) * msPerDay
      + g.timeInDay := by
  obtain ⟨hlo, hhi, hleap⟩ := dayOfYear_bounds g.day
  have hday : dayNumber (g.civil.year + 1) g.civil.month g.civil.date =
      marchDays (yearOf g.day + 1) + dayOfYear g.day - epochDays := dayNumber_civil g.day 1
  unfold anniversary
  dsimp only
  by_cases hlast : dayOfYear g.day = 365
  · obtain ⟨hmonth, hdate⟩ : g.civil.month = 1 ∧ g.civil.date = 29 := civil_leapDay.mp hlast
    have hyear : g.civil.year = yearOf g.day + 1 := by
      have h := civil_year (z := g.day)
      rwa [if_pos (by rw [show (Lib.civil g.day).month = 1 from hmonth]; omega)] at h
    -- the year after a leap year has 28 days in February
    have hshort : daysInMonth (g.civil.year + 1) 1 = 28 := by
      have hnot := (isLeap_next (y := yearOf g.day) (hleap hlast)).2
      rw [hyear, Int.add_assoc]
      simp [daysInMonth, hnot]
    have hback := dayNumber_date (g.civil.year + 1) 1 29 (-1)
    rw [hmonth, hdate] at hday
    rw [hmonth, hdate, hshort]
    simp only [show (29 : Int) + -1 = min 29 28 by decide] at hback
    rw [hback, hday, hlast]
    rw [show min (365 : Int) 364 = 364 by decide]
    congr 2
    omega
  · have hdate : g.civil.date ≤ daysInMonth (g.civil.year + 1) g.civil.month :=
      civil_date_of_year hlast _
    rw [min_eq_left hdate, hday, min_eq_left (by omega)]

theorem rolledOver_iff {g now : Date} :
    RolledOver g now ↔ dayOfYear now.day = 365 ∧ yearOf g.day = yearOf now.day ∧
      dayOfYear g.day = 0 ∧ g.timeInDay < now.timeInDay := by
  have hnow := civil_year (z := now.day)
  have hg := civil_year (z := g.day)
  unfold RolledOver Date.civil
  rw [civil_leapDay, civil_firstDay]
  constructor
  · rintro ⟨hmonth, hdate, hcivil, htime⟩
    rw [hcivil] at hg ⊢
    rw [hmonth] at hnow
    simp at hnow hg
    exact ⟨⟨hmonth, hdate⟩, by omega, ⟨rfl, rfl⟩, htime⟩
  · rintro ⟨⟨hmonth, hdate⟩, hyear, ⟨hmarch, hfirst⟩, htime⟩
    rw [hmonth] at hnow
    rw [hmarch] at hg
    simp at hnow hg
    have hbefore : (Lib.civil now.day).year - 1 = (Lib.civil g.day).year := by omega
    refine ⟨hmonth, hdate, ?_, htime⟩
    rw [hbefore, ← hmarch, ← hfirst]

/-- **A grant is stale before its anniversary only where the cutoff has rolled over.** -/
theorem neverEarly_iff {g now : Date} :
    (isStaleAt g now = true → anniversary g ≤ now.time) ↔ ¬ RolledOver g now := by
  have hg := marchDays_yearOf g.day
  have hnow := marchDays_yearOf now.day
  obtain ⟨hg0, hg365, hgleap⟩ := dayOfYear_bounds g.day
  obtain ⟨hn0, hn365, hnleap⟩ := dayOfYear_bounds now.day
  have hgtime := g.timeInDay_bounds
  have hntime := now.timeInDay_bounds
  rw [isStaleAt_iff, rolledOver_iff, anniversary_eq, g.day_timeInDay, now.day_timeInDay]
  unfold cutoffTime
  unfold msPerDay at hgtime hntime ⊢
  generalize yearOf g.day = q at *
  generalize yearOf now.day = p at *
  have hprev := (marchDays_gap (p - 1))
  rw [Int.sub_add_cancel] at hprev
  have hnext := (marchDays_gap q)
  rcases Int.lt_trichotomy q (p - 1) with hlt | rfl | hgt
  · -- more than a year before the cutoff's
    have h := marchDays_gap (q + 1)
    have h' := marchDays_lt hlt
    omega
  · rw [Int.sub_add_cancel] at *
    omega
  · by_cases hp : q = p
    · subst hp
      by_cases hlast : dayOfYear now.day = 365
      · have hshort : marchDays q = marchDays (q - 1) + 365 := by
          have h := marchDays_succ (q - 1)
          rw [Int.sub_add_cancel, (isLeap_next (hnleap hlast)).1] at h
          simpa using h
        have hlong : marchDays (q + 1) = marchDays q + 366 := by
          rw [marchDays_succ, hnleap hlast]
          simp
          omega
        omega
      · omega
    · have h := marchDays_lt (show p < q by omega)
      have h' := marchDays_gap p
      omega

theorem isStaleAt_mono {g t₁ t₂ : Date} (hle : t₁.time ≤ t₂.time) (hnot : ¬ RolledOver g t₁)
    (h : isStaleAt g t₁ = true) : isStaleAt g t₂ = true := by
  have hday := marchDays_yearOf g.day
  have hspec := yearOf_spec g.day
  have h₁ := marchDays_yearOf t₁.day
  have h₂ := marchDays_yearOf t₂.day
  have hspec₂ := yearOf_spec t₂.day
  obtain ⟨h10, h1365, hleap⟩ := dayOfYear_bounds t₁.day
  obtain ⟨h20, -, -⟩ := dayOfYear_bounds t₂.day
  have hgtime := g.timeInDay_bounds
  have htime₁ := t₁.timeInDay_bounds
  have htime₂ := t₂.timeInDay_bounds
  rw [isStaleAt_iff, g.day_timeInDay] at h ⊢
  rw [t₁.day_timeInDay, t₂.day_timeInDay] at hle
  rw [rolledOver_iff] at hnot
  unfold cutoffTime at h ⊢
  unfold msPerDay at *
  generalize yearOf g.day = q at *
  generalize yearOf t₁.day = p at *
  generalize yearOf t₂.day = r at *
  have hprev := marchDays_gap (p - 1)
  rw [Int.sub_add_cancel] at hprev
  rcases Int.lt_trichotomy p r with hlt | rfl | hgt
  · -- the cutoff of the later moment is in a later year from March
    have hcut : marchDays p ≤ marchDays (r - 1) := by
      have := marchDays_lt (show p - 1 < r - 1 by omega)
      rwa [Int.sub_add_cancel] at this
    by_cases hlast : dayOfYear t₁.day = 365
    · have hshort : marchDays p = marchDays (p - 1) + 365 := by
        have := marchDays_succ (p - 1)
        rw [Int.sub_add_cancel, (isLeap_next (hleap hlast)).1] at this
        simpa using this
      have hnext := marchDays_gap p
      rcases Int.lt_trichotomy q p with hq | rfl | hq
      · have hbefore := marchDays_lt hq
        omega
      · omega
      · have hafter := marchDays_lt hq
        omega
    · omega
  · omega
  · have hback := marchDays_lt hgt
    have hnext := marchDays_gap r
    omega

/-! ## The window -/

/-- **Stale consent stays stale, is never stale early, and is what the scan expires, exactly
where neither moment is the leap day to whose cutoff the grant's day rolls over.** -/
theorem stays_stale_iff (g t₁ t₂ : Date) (hle : t₁.time ≤ t₂.time) :
    ((isStaleAt g t₁ = true → isStaleAt g t₂ = true) ∧ TwelveMonths g t₁ ∧ TwelveMonths g t₂) ↔
      ¬ RolledOver g t₁ ∧ ¬ RolledOver g t₂ := by
  constructor
  · rintro ⟨-, h₁, h₂⟩
    exact ⟨neverEarly_iff.mp h₁.neverEarly, neverEarly_iff.mp h₂.neverEarly⟩
  · rintro ⟨h₁, h₂⟩
    exact ⟨isStaleAt_mono hle h₁, ⟨neverEarly_iff.mpr h₁, scanExpires_eq t₁⟩,
      ⟨neverEarly_iff.mpr h₂, scanExpires_eq t₂⟩⟩

/-- 2025-04-30 and one year later, at noon. -/
theorem stays_stale_iff_april :
    ((isStaleAt ⟨1746014400000, by decide⟩ ⟨1777550400001, by decide⟩ = true →
        isStaleAt ⟨1746014400000, by decide⟩ ⟨1777636800000, by decide⟩ = true) ∧
      TwelveMonths ⟨1746014400000, by decide⟩ ⟨1777550400001, by decide⟩ ∧
      TwelveMonths ⟨1746014400000, by decide⟩ ⟨1777636800000, by decide⟩) ↔
      ¬ RolledOver ⟨1746014400000, by decide⟩ ⟨1777550400001, by decide⟩ ∧
      ¬ RolledOver ⟨1746014400000, by decide⟩ ⟨1777636800000, by decide⟩ :=
  stays_stale_iff _ _ _ (by decide)

/-- Granted on 2023-03-01 at noon: stale on 2024-02-29 at 23:00, and two hours later not. -/
theorem stale_then_not :
    isStaleAt ⟨1677672000000, by decide⟩ ⟨1709247600000, by decide⟩ = true ∧
      isStaleAt ⟨1677672000000, by decide⟩ ⟨1709254800000, by decide⟩ = false := by
  decide +kernel

end AramoPlatform.Consent
