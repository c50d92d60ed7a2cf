import CallCheck.Call.Data
import Mathlib.Algebra.Order.Floor.Ring
import Mathlib.Data.Rat.Floor
import Mathlib.Order.Monotone.Basic
import Mathlib.Tactic.ByContra
import Mathlib.Tactic.IntervalCases

/-!
# Instants read back

The Gregorian calendar as the lengths of its months, and texts of instants read by it. Nothing of
what `Date.ofDays` computes with is used to read: no eras, and no years that begin in March. The
days of the years and months before a date are added up.

## Why dates are those of the calendar

In an era the days belong to the years in order (`Date.daysBefore_le_iff`), so the year that is
computed is the one the day lies in. A year that begins in March ends in the calendar year behind
it. So days are compared at the first of January between its two parts, where both counts are known
(`Date.daysBeforeYear_of_era`).

## Main statement

`Call.sample_agrees`: the forms in which a call shows an instant say the same, at any instant whose
nanoseconds have 64 bits, before 1970 as well as after.
-/

namespace CallCheck.Text

namespace Date

/-! ## The calendar -/

/-- A year of the Gregorian calendar with a leap day. -/
def IsLeap (year : Nat) : Prop := 4 ∣ year ∧ (100 ∣ year → 400 ∣ year)

instance : DecidablePred IsLeap := fun _ ↦ inferInstanceAs (Decidable (_ ∧ _))

/-- The lengths of the months of a year. -/
def monthLengths (year : Nat) : List Nat :=
  [31, if IsLeap year then 29 else 28, 31, 30, 31, 30, 31, 31, 30, 31, 30, 31]

/-- The days of a year. -/
def yearLength (year : Nat) : Nat := (monthLengths year).sum

/-- The days of the years before a year. -/
def daysBeforeYear (year : Nat) : Nat := ((List.range year).map yearLength).sum

/-- The days before a day of the calendar, from the first day of the year 0 on. -/
def dayNumber (year month day : Nat) : Nat :=
  daysBeforeYear year + ((monthLengths year).take (month - 1)).sum + (day - 1)

theorem yearLength_eq (year : Nat) : yearLength year = if IsLeap year then 366 else 365 := by
  rw [yearLength, monthLengths]
  split <;> rfl

theorem daysBeforeYear_succ (year : Nat) :
    daysBeforeYear (year + 1) = daysBeforeYear year + yearLength year := by
  rw [daysBeforeYear, List.range_succ, List.map_append, List.sum_append]
  rfl

/-- The years before a year that have a leap day are those that 4 divides, without those that 100
divides, and with those that 400 divides. -/
theorem daysBeforeYear_eq (year : Nat) :
    daysBeforeYear year + (year + 99) / 100 =
      365 * year + (year + 3) / 4 + (year + 399) / 400 := by
  induction year with
  | zero => rfl
  | succ year ih =>
    have hfour : (year + 1 + 3) / 4 = (year + 3) / 4 + if 4 ∣ year then 1 else 0 := by
      split <;> omega
    have hcentury : (year + 1 + 99) / 100 = (year + 99) / 100 + if 100 ∣ year then 1 else 0 := by
      split <;> omega
    have hera : (year + 1 + 399) / 400 = (year + 399) / 400 + if 400 ∣ year then 1 else 0 := by
      split <;> omega
    have hleap : yearLength year + (if 100 ∣ year then 1 else 0) =
        365 + (if 4 ∣ year then 1 else 0) + if 400 ∣ year then 1 else 0 := by
      rw [yearLength_eq]
      simp only [IsLeap]
      by_cases h400 : 400 ∣ year
      · have h100 : 100 ∣ year := Dvd.dvd.trans (by decide) h400
        have h4 : 4 ∣ year := Dvd.dvd.trans (by decide) h400
        simp [h4, h100, h400]
      · by_cases h100 : 100 ∣ year
        · have h4 : 4 ∣ year := Dvd.dvd.trans (by decide) h100
          simp [h4, h100, h400]
        · by_cases h4 : 4 ∣ year <;> simp [h4, h100, h400]
    rw [daysBeforeYear_succ, hfour, hcentury, hera]
    omega

/-! ## Years of an era -/

theorem yearOfEra_mono : Monotone yearOfEra := by
  refine monotone_nat_of_le_succ fun n ↦ ?_
  have hquarter (k : Nat) : k / 146096 = k / 36524 / 4 := by rw [Nat.div_div_eq_div_mul]
  have hleap : (n + 1) / 1460 ≤ n / 1460 + 1 := by
    rw [Nat.succ_div]
    split <;> omega
  have hcentury : (n + 1) / 36524 = n / 36524 ∨ (n + 1) / 36524 = n / 36524 + 1 := by
    rw [Nat.succ_div]
    split <;> omega
  have hle : n / 1460 ≤ n := Nat.div_le_self n 1460
  have hle' : (n + 1) / 1460 ≤ n + 1 := Nat.div_le_self _ 1460
  rw [yearOfEra, yearOfEra, hquarter, hquarter]
  refine Nat.div_le_div_right ?_
  generalize n / 1460 = a, (n + 1) / 1460 = a', n / 36524 = b, (n + 1) / 36524 = b' at *
  omega

/-- The first day of a year of an era is in this year, and the day before it is not. -/
theorem yearOfEra_daysBefore : ∀ year < 400,
    yearOfEra (daysBefore year) = year ∧ (0 < year → yearOfEra (daysBefore year - 1) < year) := by
  decide +kernel

theorem daysBefore_le_iff {year day : Nat} (hyear : year < 400) :
    daysBefore year ≤ day ↔ year ≤ yearOfEra day := by
  obtain ⟨hfirst, hlast⟩ := yearOfEra_daysBefore year hyear
  constructor
  · intro hle
    calc
      year = yearOfEra (daysBefore year) := hfirst.symm
      _ ≤ yearOfEra day := yearOfEra_mono hle
  · intro hle
    by_contra! hlt
    rcases Nat.eq_zero_or_pos year with rfl | hpos
    · exact absurd hlt (Nat.not_lt_zero day)
    · have hbefore := yearOfEra_mono (Nat.le_sub_one_of_lt hlt)
      exact absurd (hle.trans hbefore) (Nat.not_le.2 (hlast hpos))

theorem yearOfEra_lt {day : Nat} (h : day < 146097) : yearOfEra day < 400 := by
  have hlast : yearOfEra 146096 = 399 := by decide
  have hle := yearOfEra_mono (Nat.le_of_lt_succ h)
  omega

/-- The days before the first of January in an era, from its first day on, which is in March. -/
theorem daysBeforeYear_of_era {era : Int} {yearOfEra year : Nat} (hlt : yearOfEra < 400)
    (hyear : (year : Int) = era * 400 + yearOfEra + 1) :
    (daysBeforeYear year : Int) = era * eraDays + daysBefore yearOfEra + 366 := by
  have hclosed := daysBeforeYear_eq year
  simp only [eraDays, daysBefore]
  omega

theorem dayOfYear_lt {era : Int} {day year : Nat} (hday : day < 146097)
    (hyear : (year : Int) = era * 400 + yearOfEra day + 1) :
    day - daysBefore (yearOfEra day) < yearLength year := by
  have hlt := yearOfEra_lt hday
  have hle : daysBefore (yearOfEra day) ≤ day := (daysBefore_le_iff hlt).2 (Nat.le_refl _)
  have hstart := daysBeforeYear_of_era hlt hyear
  have hsucc := daysBeforeYear_succ year
  by_cases hlast : yearOfEra day + 1 < 400
  · have hend : day < daysBefore (yearOfEra day + 1) :=
      Nat.lt_of_not_le fun hle ↦ Nat.not_succ_le_self _ ((daysBefore_le_iff hlast).1 hle)
    have hnext : (daysBeforeYear (year + 1) : Int) =
        era * eraDays + daysBefore (yearOfEra day + 1) + 366 :=
      daysBeforeYear_of_era hlast (by omega)
    omega
  · have hnext : (daysBeforeYear (year + 1) : Int) = (era + 1) * eraDays + daysBefore 0 + 366 :=
      daysBeforeYear_of_era (by decide) (by omega)
    have hzero : daysBefore 0 = 0 := rfl
    simp only [eraDays] at hstart hnext
    omega

/-! ## Dates of days -/

/-- Whether a year has a day, by its month and its day of the month. -/
def isDay (year month day : Nat) : Bool :=
  1 ≤ month && 1 ≤ day && (monthLengths year)[month - 1]?.any (day ≤ ·)

variable {year month day : Nat}

/-- The ten months from March on, which are in the year that begins before them. -/
theorem isDay_of_early (year : Nat) (hmonth : (5 * day + 2) / 153 = month) (hlt : month < 10) :
    let date := day - (153 * month + 2) / 5 + 1
    isDay year (month + 3) date = true ∧
      ((monthLengths year).take (month + 3 - 1)).sum + (date - 1) + 306 =
        yearLength year + day := by
  interval_cases month <;> simp [isDay, yearLength, monthLengths] <;> omega

/-- The two months behind them, which are in the next year. -/
theorem isDay_of_late (hmonth : (5 * day + 2) / 153 = month) (hle : 10 ≤ month)
    (hday : day < yearLength year) :
    let date := day - (153 * month + 2) / 5 + 1
    isDay year (month - 9) date = true ∧
      ((monthLengths year).take (month - 9 - 1)).sum + (date - 1) + 306 = day := by
  have hlength := yearLength_eq year
  have hlt : month < 12 := by
    split at hlength <;> omega
  interval_cases month <;> simp [isDay, monthLengths] <;> split at hlength <;> simp_all <;> omega

/-- **Dates are those of the calendar.** The date of a day from the year 0 on is a day of its year,
and as many days from the first of January 1970 as it should be. -/
theorem isDay_ofDays {days : Int} (hyear : (ofDays days).year = year) :
    isDay year (ofDays days).month (ofDays days).day = true ∧
      (dayNumber year (ofDays days).month (ofDays days).day : Int) =
        days + dayNumber 1970 1 1 := by
  have hepoch : (dayNumber 1970 1 1 : Int) = 719528 := by
    have hclosed := daysBeforeYear_eq 1970
    have hjanuary : ((monthLengths 1970).take (1 - 1)).sum = 0 := rfl
    simp only [dayNumber, hjanuary]
    omega
  generalize hdoe : ((days + epochDay).fmod eraDays).toNat = dayOfEra at *
  generalize hera : (days + epochDay).fdiv eraDays = era at *
  have hcount : days + epochDay = era * eraDays + dayOfEra ∧ dayOfEra < 146097 := by
    rw [← hdoe, ← hera]
    have hpos : (0 : Int) ≤ 146097 := by decide
    simp only [eraDays, Int.fdiv_eq_ediv_of_nonneg _ hpos, Int.fmod_eq_emod_of_nonneg _ hpos]
    omega
  obtain ⟨hdays, hlt⟩ := hcount
  have hle : daysBefore (yearOfEra dayOfEra) ≤ dayOfEra :=
    (daysBefore_le_iff (yearOfEra_lt hlt)).2 (Nat.le_refl _)
  simp only [ofDays, hdoe, hera] at hyear ⊢
  generalize hmonth : (5 * (dayOfEra - daysBefore (yearOfEra dayOfEra)) + 2) / 153 = month at *
  rw [dayNumber, hepoch]
  by_cases hlate : 10 ≤ month
  · rw [if_pos hlate] at hyear ⊢
    have hstart := daysBeforeYear_of_era (yearOfEra_lt hlt) hyear.symm
    obtain ⟨hisDay, hsum⟩ := isDay_of_late hmonth hlate (dayOfYear_lt hlt hyear.symm)
    refine ⟨hisDay, ?_⟩
    simp only [epochDay, eraDays] at *
    omega
  · rw [if_neg hlate] at hyear ⊢
    have hnext : ((year + 1 : Nat) : Int) = era * 400 + yearOfEra dayOfEra + 1 := by omega
    have hstart := daysBeforeYear_of_era (yearOfEra_lt hlt) hnext
    rw [daysBeforeYear_succ] at hstart
    obtain ⟨hisDay, hsum⟩ := isDay_of_early year hmonth (Nat.not_le.1 hlate)
    refine ⟨hisDay, ?_⟩
    simp only [epochDay, eraDays] at *
    omega

theorem exists_year {days : Int} (hle : 0 ≤ days + epochDay)
    (hlt : days + epochDay < 24 * eraDays) :
    ∃ year : Nat, (ofDays days).year = year ∧ year < 10000 := by
  have hpos : (0 : Int) ≤ 146097 := by decide
  have hday : ((days + epochDay).fmod eraDays).toNat < 146097 := by
    simp only [eraDays, Int.fmod_eq_emod_of_nonneg _ hpos]
    omega
  have hera : 0 ≤ (days + epochDay).fdiv eraDays ∧ (days + epochDay).fdiv eraDays < 24 := by
    simp only [eraDays, Int.fdiv_eq_ediv_of_nonneg _ hpos] at *
    omega
  have hyear := yearOfEra_lt hday
  refine ⟨(ofDays days).year.toNat, ?_⟩
  simp only [ofDays]
  split <;> omega

theorem lt_of_isDay (h : isDay year month day = true) : month < 100 ∧ day < 100 := by
  rw [isDay, Bool.and_eq_true, Bool.and_eq_true, Option.any_eq_true] at h
  obtain ⟨⟨-, -⟩, length, hlength, hle⟩ := h
  obtain ⟨hlt, heq⟩ := List.getElem?_eq_some_iff.1 hlength
  have hmax : ∀ n ∈ monthLengths year, n ≤ 31 := by
    intro n hn
    simp only [monthLengths, List.mem_cons, List.not_mem_nil, or_false] at hn
    split at hn <;> omega
  have hlength_le := hmax length (heq ▸ List.getElem_mem hlt)
  have hday := of_decide_eq_true hle
  have htwelve : (monthLengths year).length = 12 := rfl
  omega

end Date

/-! ## Reading texts -/

/-- The number that as many digits write as a width says, and what is behind them. -/
def readNumber? (width : Nat) (cs : List Char) : Option (Nat × List Char) :=
  let digits := cs.take width
  if digits.length = width ∧ digits.all Char.isDigit then
    some (Nat.ofDigitChars 10 digits 0, cs.drop width)
  else none

/-- What is behind a mark. -/
def readMark? (mark : Char) : List Char → Option (List Char)
  | [] => none
  | c :: cs => if c = mark then some cs else none

/-- The instant that a text writes, in seconds since the start of 1970: a day of a year with four
digits, and a whole second of the day, both as they are in Greenwich. -/
def readInstant? (s : String) : Option Int := do
  let (year, cs) ← readNumber? 4 s.toList
  let (month, cs) ← readMark? '-' cs >>= readNumber? 2
  let (day, cs) ← readMark? '-' cs >>= readNumber? 2
  let (hour, cs) ← readMark? 'T' cs >>= readNumber? 2
  let (minute, cs) ← readMark? ':' cs >>= readNumber? 2
  let (second, cs) ← readMark? ':' cs >>= readNumber? 2
  if cs = ['Z'] ∧ Date.isDay year month day ∧ hour < 24 ∧ minute < 60 ∧ second < 60 then
    let days : Int := Date.dayNumber year month day - Date.dayNumber 1970 1 1
    return 86400 * days + (3600 * hour + 60 * minute + second)
  else none

theorem ofDigitChars_zeros (n : Nat) : Nat.ofDigitChars 10 (List.replicate n '0') 0 = 0 := by
  induction n with
  | zero => rfl
  | succ n ih => rwa [List.replicate_succ, Nat.ofDigitChars_cons]

theorem readNumber?_padded {width n : Nat} (hwidth : 0 < width) (hn : n < 10 ^ width)
    (cs : List Char) : readNumber? width ((padded width n).toList ++ cs) = some (n, cs) := by
  have hlength : (padded width n).toList.length = width := by
    have hle := (Nat.length_toDigits_le_iff (b := 10) (by decide) hwidth).2 hn
    rw [padded, String.toList_ofList, List.length_append, List.length_replicate]
    omega
  have hdigits : (padded width n).toList.all Char.isDigit = true := by
    rw [padded, String.toList_ofList, List.all_eq_true]
    intro c hc
    rcases List.mem_append.1 hc with hc | hc
    · rw [List.eq_of_mem_replicate hc]
      rfl
    · exact Nat.isDigit_of_mem_toDigits (by decide) (by decide) hc
  have hvalue : Nat.ofDigitChars 10 (padded width n).toList 0 = n := by
    rw [padded, String.toList_ofList, Nat.ofDigitChars_append, ofDigitChars_zeros,
      Nat.ofDigitChars_ten_toDigits]
  rw [readNumber?, List.take_left' hlength, List.drop_left' hlength, hvalue]
  exact if_pos ⟨hlength, hdigits⟩

theorem readMark?_cons (mark : Char) (cs : List Char) : readMark? mark (mark :: cs) = some cs :=
  if_pos rfl

theorem yearText_of_lt {year : Nat} (h : year < 10000) : yearText year = padded 4 year := by
  rw [yearText, if_neg (Int.not_lt.2 (Int.natCast_nonneg year)), if_neg (by omega),
    Int.natAbs_natCast]

theorem toList_instant {seconds : Int} {year : Nat} {date : Date} {time : Nat}
    (hdate : Date.ofDays (seconds.fdiv daySeconds) = date) (hyear : date.year = year)
    (hlt : year < 10000) (htime : (seconds.fmod daySeconds).toNat = time) :
    (instant seconds).toList =
      (padded 4 year).toList ++ '-' :: ((padded 2 date.month).toList ++ '-' ::
        ((padded 2 date.day).toList ++ 'T' :: ((padded 2 (time / 3600)).toList ++ ':' ::
          ((padded 2 (time / 60 % 60)).toList ++ ':' ::
            ((padded 2 (time % 60)).toList ++ ['Z']))))) := by
  rw [instant, hdate, htime, hyear, yearText_of_lt hlt]
  simp [toString]

/-- **Instants are read back**, in the years that four digits write. -/
theorem readInstant?_instant {seconds : Int} {year : Nat}
    (hyear : (Date.ofDays (seconds.fdiv daySeconds)).year = year) (hlt : year < 10000) :
    readInstant? (instant seconds) = some seconds := by
  obtain ⟨hisDay, hnumber⟩ := Date.isDay_ofDays hyear
  obtain ⟨hmonth, hday⟩ := Date.lt_of_isDay hisDay
  have hpos : (0 : Int) ≤ 86400 := by decide
  have htime : seconds = 86400 * seconds.fdiv daySeconds + (seconds.fmod daySeconds).toNat ∧
      (seconds.fmod daySeconds).toNat < 86400 := by
    simp only [daySeconds, Int.fdiv_eq_ediv_of_nonneg _ hpos, Int.fmod_eq_emod_of_nonneg _ hpos]
    omega
  obtain ⟨hseconds, htime⟩ := htime
  rw [readInstant?, toList_instant rfl hyear hlt rfl]
  generalize (seconds.fmod daySeconds).toNat = time at *
  generalize Date.ofDays (seconds.fdiv daySeconds) = date at *
  have htwo (n : Nat) (hn : n < 100) (cs : List Char) :
      readNumber? 2 ((padded 2 n).toList ++ cs) = some (n, cs) :=
    readNumber?_padded (by decide) hn cs
  simp only [readNumber?_padded (by decide : 0 < 4) hlt, readMark?_cons, htwo _ hmonth,
    htwo _ hday, htwo (time / 3600) (by omega), htwo (time / 60 % 60) (by omega),
    htwo (time % 60) (by omega), Option.bind_eq_bind, Option.bind_some, hnumber]
  rw [if_pos ⟨trivial, hisDay, by omega, by omega, by omega⟩]
  refine congrArg some ?_
  omega

end CallCheck.Text

namespace CallCheck.Call

/-! ## Samples -/

/-- The forms of an instant agree: the counts of seconds and of milliseconds are that of nanoseconds
rounded down, and the date and time are read back as the count of seconds. -/
structure Sample.Agrees (s : Sample) : Prop where
  seconds : s.seconds = ⌊(s.nanos : ℚ) / 10 ^ 9⌋
  millis : s.millis = ⌊(s.nanos : ℚ) / 10 ^ 6⌋
  timestamp : Text.readInstant? s.timestamp = some s.seconds

theorem fdiv_eq_floor (a : Int) (b : Nat) : a.fdiv b = ⌊(a : ℚ) / b⌋ := by
  rw [Int.fdiv_eq_ediv_of_nonneg a (Int.natCast_nonneg b), Rat.floor_intCast_div_natCast]

theorem Sample.agrees_at {nanos : Int} (h : Numeric.hasWidth 64 nanos = true) (uuid : String) :
    (Sample.at nanos uuid).nanos = nanos ∧ (Sample.at nanos uuid).Agrees := by
  have hnanos : (Sample.at nanos uuid).nanos = nanos := if_pos h
  obtain ⟨hle, hge⟩ := Numeric.hasWidth_iff.1 h
  have hcapacity : Numeric.capacity 63 = 9223372036854775808 := rfl
  have hdays : -106752 ≤ (nanos.fdiv 1000000000).fdiv Text.daySeconds ∧
      (nanos.fdiv 1000000000).fdiv Text.daySeconds ≤ 106751 := by
    have hpos : (0 : Int) ≤ 86400 := by decide
    have hpos' : (0 : Int) ≤ 1000000000 := by decide
    simp only [Numeric.minSigned, Numeric.maxSigned, Nat.reduceSub, hcapacity] at hle hge
    simp only [Text.daySeconds, Int.fdiv_eq_ediv_of_nonneg _ hpos,
      Int.fdiv_eq_ediv_of_nonneg _ hpos']
    omega
  have hfirst : 0 ≤ (nanos.fdiv 1000000000).fdiv Text.daySeconds + Text.Date.epochDay := by
    rw [Text.Date.epochDay]
    omega
  have hlast : (nanos.fdiv 1000000000).fdiv Text.daySeconds + Text.Date.epochDay <
      24 * Text.Date.eraDays := by
    rw [Text.Date.epochDay, Text.Date.eraDays]
    omega
  obtain ⟨year, hyear, hlt⟩ := Text.Date.exists_year hfirst hlast
  refine ⟨hnanos, ?_, ?_, Text.readInstant?_instant hyear hlt⟩
  · rw [hnanos]
    exact_mod_cast fdiv_eq_floor nanos (10 ^ 9)
  · rw [hnanos]
    exact_mod_cast fdiv_eq_floor nanos (10 ^ 6)

namespace Data

/-- The names of the fields that are taken anew for every message. -/
def sampleNames : List String :=
  ["Timestamp", "TimestampUnix", "TimestampUnixMilli", "TimestampUnixNano", "UUID"]

theorem field?_regenerate (d : Data) (sample : Sample) {key : String} (h : key ∉ sampleNames) :
    (d.regenerate sample).field? key = d.field? key := by
  have hne : ∀ name ∈ sampleNames, (key == name) = false := by
    intro name hname
    exact beq_eq_false_iff_ne.2 fun heq ↦ h (heq ▸ hname)
  simp only [sampleNames, List.forall_mem_cons] at hne
  simp only [field?, members, regenerate, List.lookup_cons, hne]

end Data

/-- **The forms of an instant agree**, in the data of a call and in the data that is taken anew for
a message, in which everything else stays as it was. -/
theorem sample_agrees (d : Data) {nanos later : Int} {uuid : String}
    (hnanos : Numeric.hasWidth 64 nanos = true) (hsample : d.sample = .at nanos uuid)
    (hlater : Numeric.hasWidth 64 later = true) (uuid' : String) :
    let next := d.regenerate (.at later uuid')
    (d.sample.nanos = nanos ∧ d.sample.Agrees) ∧
      (next.sample.nanos = later ∧ next.sample.Agrees) ∧
      { next with sample := d.sample } = d ∧
      ∀ key ∉ Data.sampleNames, next.field? key = d.field? key := by
  intro next
  rw [hsample]
  refine ⟨Sample.agrees_at hnanos uuid, Sample.agrees_at hlater uuid', ?_, fun key hkey ↦ ?_⟩
  · rw [← hsample]
    rfl
  · exact d.field?_regenerate _ hkey

/-- The data of a call just before 1970. -/
def earlyCall : Data where
  workerId := "w"
  requestNumber := 1
  method :=
    { service := ⟨"helloworld.Greeter", "Greeter"⟩, name := "SayHello"
      input := ⟨"helloworld.HelloRequest", "HelloRequest"⟩
      output := ⟨"helloworld.HelloReply", "HelloReply"⟩
      clientStreaming := false, serverStreaming := false }
  sample := .at (-1) "a"

/-- The last second of 1969, and the last one of a leap day in a year that 400 divides. -/
theorem sample_agrees_early :
    let next := earlyCall.regenerate (.at 951868799999999999 "b")
    Numeric.hasWidth 64 (-1) = true ∧ earlyCall.sample = .at (-1) "a" ∧
      Numeric.hasWidth 64 951868799999999999 = true ∧
      earlyCall.sample.timestamp = "1969-12-31T23:59:59Z" ∧
      Text.readInstant? "1969-12-31T23:59:59Z" = some (-1) ∧
      next.sample.timestamp = "2000-02-29T23:59:59Z" ∧
      Text.readInstant? "2000-02-29T23:59:59Z" = some 951868799 ∧
      next.field? "WorkerID" = earlyCall.field? "WorkerID" := by
  intro next
  have hearly : Numeric.hasWidth 64 (-1) = true := by decide
  have hlate : Numeric.hasWidth 64 951868799999999999 = true := by decide
  obtain ⟨⟨-, hagrees⟩, ⟨-, hnext⟩, -, hfields⟩ := sample_agrees earlyCall hearly rfl hlate "b"
  have htext : earlyCall.sample.timestamp = "1969-12-31T23:59:59Z" := by decide +kernel
  have hnextText : next.sample.timestamp = "2000-02-29T23:59:59Z" := by decide +kernel
  exact ⟨hearly, rfl, hlate, htext, htext ▸ hagrees.timestamp, hnextText,
    hnextText ▸ hnext.timestamp, hfields "WorkerID" (by decide)⟩

end CallCheck.Call
