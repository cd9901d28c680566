import AramoPlatform.Js.Decimal
import AramoPlatform.Js.UtcDate
import AramoPlatform.Sign.Der

/-!
# Times and OIDs in DER

`decodeGeneralizedTime` and `encodeGeneralizedTime` of the time stamp. The
pattern fixes the number of digits and `Date.UTC` does the rest: it rolls over
what is out of range, and it takes a year below 100 for one of the twentieth
century. `oid` and `readOid` of the seal take the first two arcs of an OID for
one byte; `encodeOid` and `decodeOid` of the time stamp for an arc as any other.
-/

namespace AramoPlatform.Sign

open Js Lib List

/-- What the pattern of a GeneralizedTime captures. -/
structure TimeGroups where
  year : Nat
  month : Nat
  date : Nat
  hours : Nat
  minutes : Nat
  seconds : Nat
  fraction : Option JsString
  deriving DecidableEq

/-- `\d` so many times, from the start of a text. -/
def takeDigits (w : Nat) (text : JsString) : Option (Nat × JsString) :=
  if (text.take w).length = w ∧ (text.take w).all isDigit = true then
    some (digitsValue (text.take w), text.drop w)
  else none

/-- `(?:\.(\d{1,9}))?Z$`. -/
def timeTail : JsString → Option (Option JsString)
  | [0x5A] => some none
  | 0x2E :: rest =>
    let fraction := rest.dropLast
    if rest.getLast? = some 0x5A ∧ (1 ≤ fraction.length ∧ fraction.length ≤ 9) ∧
        fraction.all isDigit = true then some (some fraction)
    else none
  | _ => none

def timeGroups (text : JsString) : Option TimeGroups := do
  let (year, text) ← takeDigits 4 text
  let (month, text) ← takeDigits 2 text
  let (date, text) ← takeDigits 2 text
  let (hours, text) ← takeDigits 2 text
  let (minutes, text) ← takeDigits 2 text
  let (seconds, text) ← takeDigits 2 text
  let fraction ← timeTail text
  some ⟨year, month, date, hours, minutes, seconds, fraction⟩

/-- `content.toString('latin1')`. -/
def latin1 (bytes : Buffer) : JsString := bytes.map (·.toUInt16)

/-- `new Date(Date.UTC(…))` of the groups; `millis` is
`Math.floor(Number("0." + fraction) * 1000)`. -/
def TimeGroups.utc (millis : JsString → Nat) (t : TimeGroups) : Option Date :=
  let ms : Nat := t.fraction.elim 0 millis
  dateUTC t.year ((t.month : Int) - 1) t.date t.hours t.minutes t.seconds ms

def decodeGeneralizedTime (millis : JsString → Nat) (node : DerNode) : Except String Date := do
  require (node.tag == 0x18) "expected a GeneralizedTime"
  let text := String.ofList (node.content.map fun b => Char.ofNat b.toNat)
  match timeGroups (latin1 node.content) with
  | none => .error ("malformed GeneralizedTime \"" ++ text ++ "\"")
  | some t =>
    match t.utc millis with
    | none => .error ("invalid GeneralizedTime \"" ++ text ++ "\"")
    | some date => .ok date

def slice (s : JsString) (start stop : Nat) : JsString := (s.take stop).drop start

/-- The text of a GeneralizedTime, from an ISO text. -/
def generalizedText (iso : JsString) : JsString :=
  let ms := ((slice iso 20 23).reverse.dropWhile (· == 0x30)).reverse
  slice iso 0 4 ++ slice iso 5 7 ++ slice iso 8 10 ++ slice iso 11 13 ++ slice iso 14 16 ++
    slice iso 17 19 ++ (if 0 < ms.length then 0x2E :: ms else []) ++ js "Z"

def encodeGeneralizedTime (date : Date) : Buffer :=
  tlv 0x18 ((generalizedText date.toISOString).map (·.toUInt8))

theorem decodeGeneralizedTime_eq_ok {millis : JsString → Nat} {node : DerNode} {d : Date} :
    decodeGeneralizedTime millis node = .ok d ↔ node.tag = 0x18 ∧
      ∃ t, timeGroups (latin1 node.content) = some t ∧ t.utc millis = some d := by
  simp only [decodeGeneralizedTime, bind_eq_ok, require_eq_ok, exists_const, beq_iff_eq]
  refine and_congr_right fun _ => ?_
  cases hgroups : timeGroups (latin1 node.content) with
  | none => simp
  | some t => cases hdate : t.utc millis <;> simp [hdate]

/-! ## What a time stands for -/

/-- The instant, written in UTC, has the numbers of the text. -/
structure WrittenAs (d : Date) (t : TimeGroups) : Prop where
  civil : d.civil = ⟨t.year, (t.month : Int) - 1, t.date⟩
  hours : d.timeInDay / 3600000 = t.hours
  minutes : d.timeInDay / 60000 % 60 = t.minutes
  seconds : d.timeInDay / 1000 % 60 = t.seconds

/-- A time of the calendar. -/
structure TimeGroups.Real (t : TimeGroups) : Prop where
  month : 1 ≤ t.month ∧ t.month ≤ 12
  date : 1 ≤ t.date ∧ (t.date : Int) ≤ daysInMonth t.year ((t.month : Int) - 1)
  hours : t.hours < 24
  minutes : t.minutes < 60
  seconds : t.seconds < 60

variable {millis : JsString → Nat} {d : Date} {t : TimeGroups}

theorem WrittenAs.real (h : WrittenAs d t) : t.Real := by
  obtain ⟨hlo, hhi⟩ := civil_month_bounds d.day
  obtain ⟨hone, hlast⟩ := civil_date_bounds d.day
  obtain ⟨hstart, hend⟩ := d.timeInDay_bounds
  have hcivil : Lib.civil d.day = ⟨t.year, (t.month : Int) - 1, t.date⟩ := h.civil
  rw [hcivil] at hlo hhi hone hlast
  have hhours := h.hours
  have hminutes := h.minutes
  have hseconds := h.seconds
  unfold msPerDay at hend
  dsimp only at hlo hhi hone hlast
  constructor <;> omega

theorem day_of_time {n : Int} {ms : Nat} (hhours : t.hours < 24) (hminutes : t.minutes < 60)
    (hseconds : t.seconds < 60) (hms : ms < 1000)
    (h : d.time = n * msPerDay +
      ((t.hours : Int) * 3600000 + t.minutes * 60000 + t.seconds * 1000 + ms)) :
    d.day = n ∧ d.timeInDay = t.hours * 3600000 + t.minutes * 60000 + t.seconds * 1000 + ms := by
  unfold Date.day Date.timeInDay
  rw [h]
  unfold msPerDay
  omega

theorem dayNumber_later (year date : Int) {month : Int} (hmonth : 0 ≤ month ∧ month ≤ 11) :
    dayNumber year month date < dayNumber (1900 + year) month date := by
  have hyears : ∀ p : Int, marchDays p < marchDays (1900 + p) := by
    intro p
    have hlt := marchDays_lt (show p < 1900 + p by omega)
    have hgap := marchDays_gap p
    omega
  have hzero : month / 12 = 0 := by omega
  unfold dayNumber
  dsimp only
  rw [hzero]
  split
  · have := hyears (year + 0 - 1)
    rw [show 1900 + year + 0 - 1 = 1900 + (year + 0 - 1) by omega]
    omega
  · have := hyears (year + 0)
    rw [show 1900 + year + 0 = 1900 + (year + 0) by omega]
    omega

/-- **`Date.UTC` keeps the numbers** of a time of the calendar from the year 100
on, and of no other. -/
theorem writtenAs_utc_iff (hmillis : ∀ f, millis f < 1000) (h : t.utc millis = some d) :
    WrittenAs d t ↔ t.Real ∧ 100 ≤ t.year := by
  have hms : t.fraction.elim 0 millis < 1000 := by
    cases t.fraction with
    | none => show 0 < 1000; omega
    | some f => exact hmillis f
  have htime := timeClip_eq_some.mp h
  constructor
  · intro hwritten
    have hreal := hwritten.real
    refine ⟨hreal, ?_⟩
    by_contra hyear
    rw [if_pos (by omega)] at htime
    have hmonth := hreal.month
    obtain ⟨hday, -⟩ := day_of_time hreal.hours hreal.minutes hreal.seconds hms htime
    have hself := dayNumber_civil_self d.day
    have hcivil : Lib.civil d.day = ⟨t.year, (t.month : Int) - 1, t.date⟩ := hwritten.civil
    rw [hcivil, hday] at hself
    have hlater := dayNumber_later t.year t.date (show 0 ≤ (t.month : Int) - 1 ∧ _ by omega)
    dsimp only at hself
    omega
  · rintro ⟨hreal, hyear⟩
    rw [if_neg (by omega)] at htime
    obtain ⟨hday, hin⟩ := day_of_time hreal.hours hreal.minutes hreal.seconds hms htime
    have hmonth := hreal.month
    have hdate := hreal.date
    have hhours := hreal.hours
    have hminutes := hreal.minutes
    have hseconds := hreal.seconds
    refine ⟨?_, by omega, by omega, by omega⟩
    rw [Date.civil, hday]
    exact civil_dayNumber (by omega) (by omega)

/-! ## Reading what was written -/

theorem takeDigits_decimals {w n : Nat} (h : n < 10 ^ w) (rest : JsString) :
    takeDigits w (decimals w n ++ rest) = some (n, rest) := by
  have htake : (decimals w n ++ rest).take w = decimals w n :=
    take_left' (length_decimals w n)
  have hdrop : (decimals w n ++ rest).drop w = rest :=
    drop_left' (length_decimals w n)
  have hdigits : (decimals w n).all isDigit = true := by
    simpa using isDigit_decimals w n
  simp only [takeDigits, htake, hdrop, length_decimals, hdigits, digitsValue_decimals,
    Nat.mod_eq_of_lt h, and_self, if_true]

/-- The groups of the text that an instant of whole seconds is written as. -/
def groupsOf (d : Date) : TimeGroups :=
  let t := d.timeInDay.toNat
  { year := d.civil.year.toNat, month := (d.civil.month + 1).toNat, date := d.civil.date.toNat
    hours := t / 3600000, minutes := t / 60000 % 60, seconds := t / 1000 % 60, fraction := none }

def TimeGroups.text (t : TimeGroups) : JsString :=
  decimals 4 t.year ++ (decimals 2 t.month ++ (decimals 2 t.date ++ (decimals 2 t.hours ++
    (decimals 2 t.minutes ++ (decimals 2 t.seconds ++ js "Z")))))

theorem writtenAs_groupsOf (hyear : 0 ≤ d.civil.year) : WrittenAs d (groupsOf d) := by
  obtain ⟨hlo, -⟩ := civil_month_bounds d.day
  obtain ⟨hone, -⟩ := civil_date_bounds d.day
  obtain ⟨hstart, -⟩ := d.timeInDay_bounds
  have hmonth : 0 ≤ d.civil.month := hlo
  have hdate : 1 ≤ d.civil.date := hone
  refine ⟨?_, ?_, ?_, ?_⟩
  · have hcivil : (⟨d.civil.year, d.civil.month, d.civil.date⟩ : CivilDate) = d.civil := rfl
    rw [← hcivil]
    simp only [groupsOf, CivilDate.mk.injEq]
    omega
  all_goals
    simp only [groupsOf]
    omega

theorem generalizedText_iso {year month date hours minutes seconds : JsString}
    (a b c d e f z : UInt16) (hyear : year.length = 4) (hmonth : month.length = 2)
      (hdate : date.length = 2)
    (hhours : hours.length = 2) (hminutes : minutes.length = 2) (hseconds : seconds.length = 2) :
    generalizedText (year ++ [a] ++ month ++ [b] ++ date ++ [c] ++ hours ++ [d] ++ minutes ++ [e] ++
      seconds ++ [f] ++ [0x30, 0x30, 0x30] ++ [z]) =
        year ++ (month ++ (date ++ (hours ++ (minutes ++ (seconds ++ js "Z"))))) := by
  obtain ⟨_, _, rfl⟩ := length_eq_two.mp hmonth
  obtain ⟨_, _, rfl⟩ := length_eq_two.mp hdate
  obtain ⟨_, _, rfl⟩ := length_eq_two.mp hhours
  obtain ⟨_, _, rfl⟩ := length_eq_two.mp hminutes
  obtain ⟨_, _, rfl⟩ := length_eq_two.mp hseconds
  match year, hyear with
  | [_, _, _, _], _ => simp [generalizedText, slice]

theorem encodeGeneralizedTime_eq (hyear : 0 ≤ d.civil.year ∧ d.civil.year ≤ 9999)
    (hwhole : d.timeInDay % 1000 = 0) :
    encodeGeneralizedTime d = tlv 0x18 ((groupsOf d).text.map (·.toUInt8)) := by
  have hms : d.timeInDay.toNat % 1000 = 0 := by
    have := d.timeInDay_bounds
    omega
  have hzeros : decimals 3 0 = [0x30, 0x30, 0x30] := by decide
  have hseparators : js "-" = [0x2D] ∧ js "T" = [0x54] ∧ js ":" = [0x3A] ∧ js "." = [0x2E] ∧
      js "Z" = [0x5A] := by decide
  obtain ⟨h1, h2, h3, h4, h5⟩ := hseparators
  simp only [encodeGeneralizedTime, Date.toISOString, Date.yearText, if_pos hyear, hms, hzeros, h1,
    h2, h3, h4, h5]
  rw [generalizedText_iso _ _ _ _ _ _ _ (length_decimals _ _) (length_decimals _ _)
    (length_decimals _ _) (length_decimals _ _) (length_decimals _ _) (length_decimals _ _)]
  rfl

theorem timeGroups_groupsOf (hyear : 0 ≤ d.civil.year ∧ d.civil.year ≤ 9999) :
    timeGroups (groupsOf d).text = some (groupsOf d) := by
  have hreal := (writtenAs_groupsOf hyear.1).real
  have hfour : (groupsOf d).year < 10 ^ 4 := by
    show d.civil.year.toNat < 10 ^ 4
    omega
  have hmonth := hreal.month
  have hlast := (daysInMonth_bounds (groupsOf d).year ((groupsOf d).month - 1)).2
  have hdate := hreal.date
  have hhours := hreal.hours
  have hminutes := hreal.minutes
  have hseconds := hreal.seconds
  simp only [timeGroups, TimeGroups.text, takeDigits_decimals hfour,
    takeDigits_decimals (w := 2) (n := (groupsOf d).month) (by omega),
    takeDigits_decimals (w := 2) (n := (groupsOf d).date) (by omega),
    takeDigits_decimals (w := 2) (n := (groupsOf d).hours) (by omega),
    takeDigits_decimals (w := 2) (n := (groupsOf d).minutes) (by omega),
    takeDigits_decimals (w := 2) (n := (groupsOf d).seconds) (by omega), Option.bind_eq_bind,
    Option.bind_some]
  rfl

theorem latin1_text (t : TimeGroups) : latin1 (t.text.map (·.toUInt8)) = t.text := by
  have hbyte : ∀ u ∈ t.text, u.toUInt8.toUInt16 = u := by
    intro u hu
    have hlow : u.toNat < 256 := by
      have hdigit : isDigit u = true ∨ u = 0x5A := by
        simp only [TimeGroups.text, mem_append] at hu
        rcases hu with h | h | h | h | h | h | h
        iterate 6 exact .inl (isDigit_decimals _ _ u h)
        exact .inr (mem_singleton.mp ((show js "Z" = [0x5A] by decide) ▸ h))
      rcases hdigit with h | rfl
      · simp only [isDigit, Bool.and_eq_true, decide_eq_true_eq, UInt16.le_iff_toNat_le] at h
        have hle : u.toNat ≤ 57 := h.2
        omega
      · decide
    apply UInt16.toNat_inj.mp
    simp only [UInt8.toNat_toUInt16, UInt16.toNat_toUInt8]
    omega
  rw [latin1, map_map]
  exact (map_congr_left hbyte).trans (map_id _)

theorem utc_groupsOf (hyear : 100 ≤ d.civil.year) (hwhole : d.timeInDay % 1000 = 0) :
    (groupsOf d).utc millis = some d := by
  have hmonth := civil_month_bounds d.day
  have hdate := civil_date_bounds d.day
  have hself : dayNumber d.civil.year d.civil.month d.civil.date = d.day :=
    dayNumber_civil_self d.day
  have hin := d.timeInDay_bounds
  have htime := d.day_timeInDay
  have h1 : (((groupsOf d).year : Nat) : Int) = d.civil.year := by
    show ((d.civil.year.toNat : Nat) : Int) = _
    omega
  have h2 : (((groupsOf d).month : Nat) : Int) - 1 = d.civil.month := by
    show (((d.civil.month + 1).toNat : Nat) : Int) - 1 = _
    have : 0 ≤ d.civil.month := hmonth.1
    omega
  have h3 : (((groupsOf d).date : Nat) : Int) = d.civil.date := by
    show ((d.civil.date.toNat : Nat) : Int) = _
    have : 1 ≤ d.civil.date := hdate.1
    omega
  unfold TimeGroups.utc dateUTC
  dsimp only
  rw [if_neg (by omega), h1, h2, h3, hself, timeClip_eq_some]
  simp only [groupsOf, Option.elim_none]
  omega

/-- **Reading a time that was written** gives the instant from the year 100 on. -/
theorem decode_encode_iff (hmillis : ∀ f, millis f < 1000)
    (hyear : 0 ≤ d.civil.year ∧ d.civil.year ≤ 9999) (hwhole : d.timeInDay % 1000 = 0) :
    (∃ node, parseDer (encodeGeneralizedTime d) = .ok node ∧
      decodeGeneralizedTime millis node = .ok d) ↔ 100 ≤ d.civil.year := by
  have hlen : ((groupsOf d).text.map (·.toUInt8)).length < 2 ^ 32 := by
    simp [TimeGroups.text, length_decimals, show (js "Z").length = 1 by decide]
  have hparse : parseDer (tlv 0x18 _) = _ := parseWith_tlv timestampReader (by decide) hlen
  rw [← encodeGeneralizedTime_eq hyear hwhole] at hparse
  constructor
  · rintro ⟨node, hnode, hdecode⟩
    obtain rfl := Except.ok.inj (hnode.symm.trans hparse)
    obtain ⟨-, t, ht, hutc⟩ := decodeGeneralizedTime_eq_ok.mp hdecode
    have hgroups : timeGroups (groupsOf d).text = some t := latin1_text (groupsOf d) ▸ ht
    obtain rfl := Option.some.inj ((timeGroups_groupsOf hyear).symm.trans hgroups)
    have hcentury := ((writtenAs_utc_iff hmillis hutc).mp (writtenAs_groupsOf hyear.1)).2
    have : 100 ≤ d.civil.year.toNat := hcentury
    omega
  · intro hcentury
    refine ⟨_, hparse, decodeGeneralizedTime_eq_ok.mpr ⟨rfl, groupsOf d, ?_, ?_⟩⟩
    · exact (congrArg timeGroups (latin1_text (groupsOf d))).trans (timeGroups_groupsOf hyear)
    · exact utc_groupsOf hcentury hwhole

/-- **A time is read as what it says** exactly where it is a time of the
calendar from the year 100 on. -/
theorem generalizedTime_faithful_iff (hmillis : ∀ f, millis f < 1000) :
    (∀ node d, decodeGeneralizedTime millis node = .ok d →
      ∃ t, timeGroups (latin1 node.content) = some t ∧
        (WrittenAs d t ↔ t.Real ∧ 100 ≤ t.year)) ∧
    ∀ d : Date, (0 ≤ d.civil.year ∧ d.civil.year ≤ 9999) → d.timeInDay % 1000 = 0 →
      ((∃ node, parseDer (encodeGeneralizedTime d) = .ok node ∧
        decodeGeneralizedTime millis node = .ok d) ↔ 100 ≤ d.civil.year) := by
  refine ⟨fun node d h => ?_, fun d => decode_encode_iff hmillis⟩
  obtain ⟨-, t, ht, hutc⟩ := decodeGeneralizedTime_eq_ok.mp h
  exact ⟨t, ht, writtenAs_utc_iff hmillis hutc⟩

/-- 28 February 2026 is written and read as that day; 1 January 99 is not read back. -/
theorem generalizedTime_faithful_epoch :
    (∃ t, timeGroups (latin1 [0x32, 0x30, 0x32, 0x36, 0x30, 0x32, 0x32, 0x38, 0x30, 0x30, 0x30,
        0x30, 0x30, 0x30, 0x5A]) = some t ∧ WrittenAs ⟨1772236800000, by decide⟩ t) ∧
      (∃ node, parseDer (encodeGeneralizedTime ⟨1772236800000, by decide⟩) = .ok node ∧
        decodeGeneralizedTime (fun _ => 0) node = .ok ⟨1772236800000, by decide⟩) ∧
      ¬ ∃ node, parseDer (encodeGeneralizedTime ⟨-59042995200000, by decide⟩) = .ok node ∧
        decodeGeneralizedTime (fun _ => 0) node = .ok ⟨-59042995200000, by decide⟩ := by
  obtain ⟨hread, hboth⟩ :=
    @generalizedTime_faithful_iff (fun _ => 0) fun _ => by decide
  refine ⟨?_, (hboth _ (by decide) (by decide)).mpr (by decide),
    fun h => absurd ((hboth _ (by decide) (by decide)).mp h) (by decide)⟩
  obtain ⟨t, ht, hiff⟩ := hread (element 0x18 [0x32, 0x30, 0x32, 0x36, 0x30, 0x32, 0x32, 0x38,
    0x30, 0x30, 0x30, 0x30, 0x30, 0x30, 0x5A]) ⟨1772236800000, by decide⟩
    (decodeGeneralizedTime_eq_ok.mpr ⟨rfl, ⟨2026, 2, 28, 0, 0, 0, none⟩, by
      decide +kernel, by decide +kernel⟩)
  obtain rfl : t = ⟨2026, 2, 28, 0, 0, 0, none⟩ :=
    Option.some.inj (ht.symm.trans (by decide +kernel))
  exact ⟨_, ht, hiff.mpr ⟨⟨by decide, by decide, by decide, by decide, by decide⟩, by decide⟩⟩

/-- 30 February is read as 2 March. -/
theorem february_rolls_over : ¬ ∀ node d, decodeGeneralizedTime (fun _ => 0) node = .ok d →
    ∃ t, timeGroups (latin1 node.content) = some t ∧ WrittenAs d t := by
  intro hclaim
  let content : Buffer := [0x32, 0x30, 0x32, 0x36, 0x30, 0x32, 0x33, 0x30, 0x30, 0x30, 0x30, 0x30,
    0x30, 0x30, 0x5A]
  obtain ⟨t, ht, hwritten⟩ := hclaim (element 0x18 content) ⟨1772409600000, by decide⟩
    (decodeGeneralizedTime_eq_ok.mpr ⟨rfl, ⟨2026, 2, 30, 0, 0, 0, none⟩, by
      decide +kernel, by decide +kernel⟩)
  obtain rfl : t = ⟨2026, 2, 30, 0, 0, 0, none⟩ :=
    Option.some.inj (ht.symm.trans (by decide +kernel))
  exact absurd hwritten.real.date.2 (by decide)

/-! ## OIDs -/

/-- `[arc & 0x7f]`, and `(n & 0x7f) | 0x80` unshifted while `n > 0`. Numbers are
exact here: the code has the nearest double of one from 2^53 on, which `oid`
refuses as well. -/
def pushArc (arc : Nat) : Buffer :=
  (numeral 128 (arc / 128)).map (fun d => UInt8.ofNat (d + 128)) ++ [UInt8.ofNat (arc % 128)]

/-- `Number` of `/^\d+$/`. -/
def arcOf (part : JsString) : Option Nat :=
  if part ≠ [] ∧ part.all isDigit = true then some (digitsValue part) else none

/-- What `0x`, `0o` and `0b` stand for. -/
def radixOf (u : UInt16) : Option Nat :=
  if u = 0x78 ∨ u = 0x58 then some 16 else if u = 0x6F ∨ u = 0x4F then some 8
  else if u = 0x62 ∨ u = 0x42 then some 2 else none

def radixDigit (u : UInt16) : Option Nat :=
  if isDigit u then some (digitValue u) else if 0x41 ≤ u ∧ u ≤ 0x46 then some (u.toNat - 55)
  else if 0x61 ≤ u ∧ u ≤ 0x66 then some (u.toNat - 87) else none

/-- `Number` where it is not negative: blanks around are dropped, and nothing is 0. Signs and
exponents are left out. -/
def numberOf (part : JsString) : Option Nat :=
  match trim part with
  | [] => some 0
  | u :: rest =>
    if (u :: rest).all isDigit = true then some (digitsValue (u :: rest))
    else match u == 0x30, rest with
      | true, x :: d :: digits => do
          let base ← radixOf x
          let values ← (d :: digits).mapM fun u => (radixDigit u).filter (· < base)
          some (Nat.ofDigits base values.reverse)
      | _, _ => none

/-- `join('.')`. -/
def dotted (arcs : List Nat) : JsString := [0x2E].intercalate (arcs.map natText)

def oid (text : JsString) : Except JsString Buffer :=
  match (text.splitOn 0x2E).mapM numberOf with
  | some (a :: b :: rest) =>
    if (a :: b :: rest).all (· < 2 ^ 53) then
      .ok (tlv 0x06 (UInt8.ofNat (a * 40 + b) :: rest.flatMap pushArc))
    else .error (js "bad OID " ++ text)
  | _ => .error (js "bad OID " ++ text)

def encodeOid (text : JsString) : Except JsString Buffer :=
  match (text.splitOn 0x2E).mapM arcOf with
  | some (a :: b :: rest) => .ok (tlv 0x06 (((a * 40 + b) :: rest).flatMap pushArc))
  | _ => .error (js "invalid OID \"" ++ text ++ js "\"")

/-- The loop over the bytes, with the arc so far and whether it is ended: the
arcs that end, and whether the last does. -/
def readArcs (value : Nat) (ended : Bool) : Buffer → List Nat × Bool
  | [] => ([], ended)
  | b :: rest =>
    let value := value * 128 + (b &&& 0x7f).toNat
    if b < 0x80 then
      let (arcs, ended) := readArcs 0 true rest
      (value :: arcs, ended)
    else readArcs value false rest

def readOid (node : DerNode) : Except String JsString :=
  match node.tag == 0x06, node.content with
  | true, b :: rest =>
    let first := b.toNat
    .ok (dotted ((if first < 80 then first / 40 else 2) ::
      (if first < 80 then first % 40 else first - 80) :: (readArcs 0 true rest).1))
  | _, _ => .error "not an OID"

def decodeOid (node : DerNode) : Except String JsString := do
  require (node.tag == 0x06) "expected an OBJECT IDENTIFIER"
  require (!node.content.isEmpty) "empty OBJECT IDENTIFIER"
  let (arcs, ended) := readArcs 0 true node.content
  require ended "truncated OBJECT IDENTIFIER"
  let first := arcs.headD 0
  let head := if first < 40 then [0, first] else if first <
    80 then [1, first - 40] else [2, first - 80]
  .ok (dotted (head ++ arcs.tail))

/-- An OID of the standard, of safe integers. -/
structure IsOid (a b : Nat) (rest : List Nat) : Prop where
  first : a ≤ 2
  second : a < 2 → b < 40
  safe : ∀ p ∈ a :: b :: rest, p < 2 ^ 53

/-- Both write it so. -/
def Encodes (text : JsString) (content : Buffer) : Prop :=
  oid text = .ok (tlv 0x06 content) ∧ encodeOid text = .ok (tlv 0x06 content)

/-- Arcs in the shortest form: seven bits a byte, the last below 0x80 and the
first not 0x80. -/
inductive StrictArcs : Buffer → Prop
  | nil : StrictArcs []
  | cons {digits : List Nat} {last : Nat} {rest : Buffer} (hdigits : ∀ d ∈ digits, d < 128)
      (hlast : last < 128) (hhead : digits.head? ≠ some 0)
      (hsafe : numeralValue 128 digits * 128 + last < 2 ^ 53) (hrest : StrictArcs rest) :
      StrictArcs (digits.map (fun d => UInt8.ofNat (d + 128)) ++ UInt8.ofNat last :: rest)

theorem strictArcs_iff {buf : Buffer} :
    StrictArcs buf ↔ ∃ arcs : List Nat, (∀ n ∈ arcs, n < 2 ^ 53) ∧ buf = arcs.flatMap pushArc := by
  constructor
  · intro h
    induction h with
    | nil => exact ⟨[], by simp, rfl⟩
    | @cons digits last rest hdigits hlast hhead hsafe _ ih =>
      obtain ⟨arcs, harcs, rfl⟩ := ih
      refine ⟨_ :: arcs, forall_mem_cons.mpr ⟨hsafe, harcs⟩, ?_⟩
      have hdiv : (numeralValue 128 digits * 128 + last) / 128 = numeralValue 128 digits := by omega
      have hmod : (numeralValue 128 digits * 128 + last) % 128 = last := by omega
      simp [pushArc, hdiv, hmod, numeral_numeralValue (by omega) hdigits hhead]
  · rintro ⟨arcs, harcs, rfl⟩
    induction arcs with
    | nil => exact .nil
    | cons n arcs ih =>
      obtain ⟨hn, harcs⟩ := forall_mem_cons.mp harcs
      have hvalue : numeralValue 128 (numeral 128 (n / 128)) * 128 + n % 128 = n := by
        rw [numeralValue_numeral]
        omega
      have hcons := StrictArcs.cons (numeral_lt (by omega)) (Nat.mod_lt n (by omega))
        (numeral_head 128 (n / 128)) (hvalue.symm ▸ hn) (ih harcs)
      simpa [pushArc] using hcons

theorem readArcs_append {digits : List Nat} {last : Nat} (hdigits : ∀ d ∈ digits, d < 128)
    (hlast : last < 128) (value : Nat) (ended : Bool) (rest : Buffer) :
    readArcs value ended (digits.map (fun d => UInt8.ofNat (d + 128)) ++ UInt8.ofNat last :: rest) =
      ((digits.foldl (fun n d => n * 128 + d) value * 128 + last) :: (readArcs 0 true rest).1,
        (readArcs 0 true rest).2) := by
  have hlow : ∀ b : UInt8, (b &&& 0x7f).toNat = b.toNat % 128 := by
    intro b
    rw [UInt8.toNat_and, show (0x7f : UInt8).toNat =
      2 ^ 7 - 1 from rfl, Nat.and_two_pow_sub_one_eq_mod]
  induction digits generalizing value ended with
  | nil =>
    have hbyte : (UInt8.ofNat last).toNat = last := toNat_ofNat (by omega)
    have hshort : UInt8.ofNat last < 0x80 := by
      rw [UInt8.lt_iff_toNat_lt, hbyte]
      exact hlast
    simp [readArcs, hshort, hlow, hbyte, Nat.mod_eq_of_lt hlast]
  | cons d digits ih =>
    obtain ⟨hd, hdigits⟩ := forall_mem_cons.mp hdigits
    have hbyte : (UInt8.ofNat (d + 128)).toNat = d + 128 := toNat_ofNat (by omega)
    have hlong : ¬ UInt8.ofNat (d + 128) < 0x80 := by
      rw [UInt8.lt_iff_toNat_lt, hbyte]
      exact Nat.not_lt.mpr (Nat.le_add_left 128 d)
    rw [map_cons, cons_append, readArcs]
    simp only [hlow, hbyte, if_neg hlong, Nat.add_mod_right, Nat.mod_eq_of_lt hd]
    exact ih hdigits _ _

theorem readArcs_flatMap (arcs : List Nat) :
    readArcs 0 true (arcs.flatMap pushArc) = (arcs, true) := by
  induction arcs with
  | nil => rfl
  | cons n arcs ih =>
    have hvalue := numeralValue_numeral 128 (n / 128)
    rw [numeralValue] at hvalue
    rw [flatMap_cons, pushArc, append_assoc, singleton_append,
      readArcs_append (numeral_lt (by omega)) (Nat.mod_lt n (by omega)), ih,
        hvalue, Nat.div_add_mod']

theorem arcOf_natText (n : Nat) : arcOf (natText n) = some n := by
  rw [arcOf, if_pos ⟨natText_ne_nil n, all_eq_true.mpr (isDigit_natText n)⟩,
    digitsValue_natText]

theorem isSpace_of_isDigit {u : UInt16} (h : isDigit u = true) : isSpace u = false := by
  rw [isDigit, Bool.and_eq_true, decide_eq_true_eq, decide_eq_true_eq,
    UInt16.le_iff_toNat_le, UInt16.le_iff_toNat_le] at h
  have hlow : 48 ≤ u.toNat := h.1
  have hhigh : u.toNat ≤ 57 := h.2
  simp only [isSpace, UInt16.le_iff_toNat_le, ← UInt16.toNat_inj, Bool.or_eq_false_iff,
    Bool.and_eq_false_iff, decide_eq_false_iff_not, beq_eq_false_iff_ne, ne_eq,
    UInt16.reduceToNat]
  omega

theorem trim_of_isDigit {s : JsString} (h : ∀ u ∈ s, isDigit u = true) : trim s = s := by
  have hkept : ∀ l : JsString, (∀ u ∈ l, isDigit u = true) → l.dropWhile isSpace = l := by
    intro l hl
    cases l with
    | nil => rfl
    | cons u l =>
      have hspace := isSpace_of_isDigit (hl u mem_cons_self)
      rw [dropWhile_cons_of_neg (Bool.eq_false_iff.mp hspace)]
  rw [trim, hkept s h, hkept _ fun u hu => h u (mem_reverse.mp hu), reverse_reverse]

theorem numberOf_natText (n : Nat) : numberOf (natText n) = some n := by
  rw [numberOf, trim_of_isDigit (isDigit_natText n)]
  obtain ⟨u, rest, hcons⟩ := exists_cons_of_ne_nil (natText_ne_nil n)
  have hdigits : (u :: rest).all isDigit = true :=
    hcons ▸ all_eq_true.mpr (isDigit_natText n)
  rw [hcons]
  dsimp only
  rw [if_pos hdigits, ← hcons, digitsValue_natText]

theorem mapM_dotted {f : JsString → Option Nat} (hf : ∀ n, f (natText n) = some n)
    {arcs : List Nat} (h : arcs ≠ []) : ((dotted arcs).splitOn 0x2E).mapM f = some arcs := by
  rw [dotted, splitOn_intercalate]
  · clear h
    induction arcs with
    | nil => rfl
    | cons n arcs ih =>
      rw [map_cons, mapM_cons, ih, hf]
      rfl
  · simp only [forall_mem_map]
    intro n _ hdot
    exact absurd (isDigit_natText n _ hdot) (by decide)
  · simpa using h

theorem tlv_injective {tag : UInt8} {c c' : Buffer} (h : tlv tag c = tlv tag c') : c = c' := by
  have hmono : ∀ {n m : Nat}, n ≤ m → (encodeLength n).length ≤ (encodeLength m).length := by
    intro n m hle
    have hdigits := Nat.le_length_digits_le 256 n m hle
    unfold encodeLength
    split <;> split <;> simp [lengthBytes, numeral] <;> omega
  have happend := (List.cons.inj h).2
  have hlength := congrArg List.length happend
  simp only [length_append] at hlength
  refine append_inj_right' happend ?_
  rcases Nat.lt_trichotomy c.length c'.length with hlt | heq | hgt
  · have := hmono hlt.le
    omega
  · exact heq
  · have := hmono hgt.le
    omega

theorem pushArc_of_lt {n : Nat} (h : n < 128) : pushArc n = [UInt8.ofNat n] := by
  rw [pushArc, Nat.div_eq_of_lt h, Nat.mod_eq_of_lt h]
  rfl

/-- **What both write**: an OID whose first two arcs fit in a byte below 0x80. -/
theorem encodes_dotted_iff {a b : Nat} {rest : List Nat} {content : Buffer} :
    Encodes (dotted (a :: b :: rest)) content ↔ a * 40 + b < 128 ∧
      (∀ p ∈ a :: b :: rest, p < 2 ^ 53) ∧
        content = UInt8.ofNat (a * 40 + b) :: rest.flatMap pushArc := by
  rw [Encodes, oid, encodeOid, mapM_dotted numberOf_natText (cons_ne_nil _ _),
    mapM_dotted arcOf_natText (cons_ne_nil _ _)]
  dsimp only
  constructor
  · rintro ⟨hoid, hencode⟩
    split at hoid
    · rename_i hsafe
      have hone := tlv_injective (Except.ok.inj hoid)
      have hmany := tlv_injective (Except.ok.inj hencode)
      refine ⟨?_, by simpa using hsafe, hone.symm⟩
      have hlength := congrArg List.length (hone.trans hmany.symm)
      have hnil : numeral 128 ((a * 40 + b) / 128) = [] := by
        rw [← length_eq_zero_iff]
        simp [pushArc] at hlength
        simpa using hlength
      have hzero := numeralValue_numeral 128 ((a * 40 + b) / 128)
      rw [hnil] at hzero
      simp only [numeralValue, foldl_nil] at hzero
      omega
    · cases hoid
  · rintro ⟨hlt, hsafe, rfl⟩
    rw [if_pos (by simpa using hsafe), flatMap_cons, pushArc_of_lt hlt]
    exact ⟨rfl, rfl⟩

theorem read_of_lt {a b : Nat} {rest : List Nat} {node : DerNode} (htag : node.tag = 0x06)
    (hsecond : a ≤ 2 ∧ (a < 2 → b < 40)) (hlt : a * 40 + b < 128)
    (hcontent : node.content = UInt8.ofNat (a * 40 + b) :: rest.flatMap pushArc) :
    readOid node = .ok (dotted (a :: b :: rest)) ∧
      decodeOid node = .ok (dotted (a :: b :: rest)) := by
  have hall : node.content = ((a * 40 + b) :: rest).flatMap pushArc := by
    rw [hcontent, flatMap_cons, pushArc_of_lt hlt, singleton_append]
  have hread : readArcs 0 true node.content = ((a * 40 + b) :: rest, true) := by
    rw [hall, readArcs_flatMap]
  constructor
  · rw [readOid, htag, hcontent]
    simp only [beq_self_eq_true, toNat_ofNat (show a * 40 + b < 256 by omega), readArcs_flatMap]
    have harcs : (if a * 40 + b < 80 then (a * 40 + b) / 40 else 2) = a ∧
        (if a * 40 + b < 80 then (a * 40 + b) % 40 else a * 40 + b - 80) = b := by
      split <;> omega
    rw [harcs.1, harcs.2]
  · have hhead : (if a * 40 + b < 40 then [0, a * 40 + b]
        else if a * 40 + b < 80 then [1, a * 40 + b - 40] else [2, a * 40 + b - 80]) = [a, b] := by
      repeat' split
      all_goals
        simp only [List.cons.injEq, and_true]
        omega
    simp only [decodeOid, htag, hread, bind_eq_ok, require_eq_ok, headD_cons, hhead]
    simp [hcontent]

/-- **OID codecs agree exactly** where the first two arcs fit in a byte below
0x80, and on the nodes that have no other first byte and only strict arcs. -/
theorem oid_codecs_iff {a b : Nat} {rest : List Nat} (hoid : IsOid a b rest) {node : DerNode}
    (htag : node.tag = 0x06) :
    let text := dotted (a :: b :: rest)
    ((∃ content, Encodes text content ∧ readOid (element 0x06 content) = .ok text ∧
      decodeOid (element 0x06 content) = .ok text) ↔ a * 40 + b < 128) ∧
    ((∀ text, readOid node = .ok text ∨ decodeOid node = .ok text → Encodes text node.content) ↔
      ∀ first arcs, node.content = first :: arcs → first < 0x80 ∧ StrictArcs arcs) := by
  constructor
  · constructor
    · rintro ⟨content, hencodes, -⟩
      exact (encodes_dotted_iff.mp hencodes).1
    · intro hlt
      exact ⟨_, encodes_dotted_iff.mpr ⟨hlt, hoid.safe, rfl⟩,
        read_of_lt rfl ⟨hoid.first, hoid.second⟩ hlt rfl⟩
  · constructor
    · intro h first arcs hcontent
      obtain ⟨_, _, _, hread⟩ : ∃ a b rest, readOid node = .ok (dotted (a :: b :: rest)) :=
        ⟨_, _, _, by rw [readOid, htag, hcontent]; rfl⟩
      obtain ⟨hlt, hsafe, heq⟩ := encodes_dotted_iff.mp (h _ (.inl hread))
      obtain ⟨rfl, rfl⟩ := List.cons.inj (hcontent.symm.trans heq)
      refine ⟨?_, strictArcs_iff.mpr ⟨_, fun n hn => hsafe n (by simp [hn]), rfl⟩⟩
      rw [UInt8.lt_iff_toNat_lt, toNat_ofNat (by omega)]
      exact hlt
    · intro h text hread
      cases hcontent : node.content with
      | nil => simp [readOid, decodeOid, hcontent, htag, bind_eq_ok, require_eq_ok] at hread
      | cons first arcs =>
        obtain ⟨hfirst, hstrict⟩ := h first arcs hcontent
        obtain ⟨ns, hns, rfl⟩ := strictArcs_iff.mp hstrict
        have hlt : first.toNat < 128 := hfirst
        obtain ⟨x, y, hsecond, hxy⟩ : ∃ x y, (x ≤ 2 ∧ (x < 2 → y < 40)) ∧
          first.toNat = x * 40 + y := by
          by_cases hlow : first.toNat < 80
          · exact ⟨first.toNat / 40, first.toNat % 40, by omega, by omega⟩
          · exact ⟨2, first.toNat - 80, by omega, by omega⟩
        have hbyte : first = UInt8.ofNat (x * 40 + y) := by rw [← hxy, UInt8.ofNat_toNat]
        obtain ⟨h1, h2⟩ := read_of_lt htag hsecond (hxy ▸ hlt) (hbyte ▸ hcontent)
        obtain rfl : dotted (x :: y :: ns) = text := by
          rcases hread with hread | hread
          · exact Except.ok.inj (h1.symm.trans hread)
          · exact Except.ok.inj (h2.symm.trans hread)
        refine encodes_dotted_iff.mpr ⟨hxy ▸ hlt, ?_, hbyte ▸ rfl⟩
        rw [forall_mem_cons, forall_mem_cons]
        exact ⟨by omega, by omega, hns⟩

/-- sha256, 2.16.840.1.101.3.4.2.1. -/
theorem oid_codecs_sha256 : ∃ content,
    Encodes (dotted [2, 16, 840, 1, 101, 3, 4, 2, 1]) content ∧
      readOid (element 0x06 content) = .ok (dotted [2, 16, 840, 1, 101, 3, 4, 2, 1]) ∧
      decodeOid (element 0x06 content) = .ok (dotted [2, 16, 840, 1, 101, 3, 4, 2, 1]) :=
  (oid_codecs_iff ⟨by decide, by decide, by decide⟩
    (rfl : (element 0x06 [0x2a]).tag = 0x06)).1.mpr (by decide)

/-- `oid` writes 2.48 as one byte. -/
theorem second_arc_truncated : ¬ ∀ a b rest, IsOid a b rest → ∃ content,
    Encodes (dotted (a :: b :: rest)) content := by
  intro hclaim
  obtain ⟨_, hencodes⟩ := hclaim 2 48 [] ⟨by decide, by decide, by decide⟩
  exact absurd (encodes_dotted_iff.mp hencodes).1 (by decide)

end AramoPlatform.Sign
