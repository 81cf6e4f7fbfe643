import BlobStorage.Time.Instant

-- Dates, times of day and stamps are read back from what is written of them: a stamp tells the second,
-- whatever the width of its year.
namespace BlobStorage

namespace Text

-- Zeros in front do not count.
theorem digitsValue_zeros (count : Nat) (cs : List Char) :
    digitsValue (List.replicate count '0' ++ cs) = digitsValue cs := by
  induction count with
  | zero => rfl
  | succ count ih => exact ih

section Padded

variable {width m n : Nat}

theorem toList_padded (width n : Nat) :
    (padded width n).toList =
      List.replicate (width - (Nat.repr n).length) '0' ++ Nat.toDigits 10 n := by
  rw [padded, String.toList_append, String.toList_ofList, Nat.toList_repr]

theorem digitsValue_padded (width n : Nat) : digitsValue (padded width n).toList = n := by
  rw [toList_padded, digitsValue_zeros, digitsValue_toDigits]

theorem isDigit_of_mem_padded {c : Char} (h : c ∈ (padded width n).toList) : isDigit c = true := by
  rw [toList_padded, List.mem_append] at h
  rcases h with h | h
  · rw [(List.mem_replicate.mp h).2]
    rfl
  · exact isDigit_of_mem_toDigits h

-- Two digits are enough below a hundred.
theorem length_padded_two (h : n < 100) : (padded 2 n).toList.length = 2 := by
  have hall : ∀ n < 100, (padded 2 n).toList.length = 2 := by decide +kernel
  exact hall n h

-- A number of two digits at the end of a text, with a mark in front of it.
theorem append_padded_inj {front other : String} (mark : String) (hm : m < 100) (hn : n < 100)
    (h : front ++ mark ++ padded 2 m = other ++ mark ++ padded 2 n) : front = other ∧ m = n := by
  have hlength : (padded 2 m).toList.length = (padded 2 n).toList.length := by
    rw [length_padded_two hm, length_padded_two hn]
  have hlist := congrArg String.toList h
  rw [String.toList_append (s := front ++ mark), String.toList_append (s := other ++ mark)] at hlist
  obtain ⟨hfront, hdigits⟩ := List.append_inj' hlist hlength
  refine ⟨(String.append_left_inj mark).mp (String.toList_inj.mp hfront), ?_⟩
  rw [← digitsValue_padded 2 m, hdigits, digitsValue_padded]

end Padded

end Text

namespace Date

attribute [ext] Date

-- The days in front of a year of an era belong to the years before it, and less than a leap year is
-- left of the era's days behind them.
theorem yearOfEra_bounds {n y : Nat} (h : n < 146097)
    (hy : (n - n / 1460 + n / 36524 - n / 146096) / 365 = y) :
    y < 400 ∧ 365 * y + y / 4 - y / 100 ≤ n ∧ n - (365 * y + y / 4 - y / 100) ≤ 365 := by
  -- four years have 1461 days: the quotient may be the year before where that day counts already
  have hcycle : y / 4 = n / 1460 ∨ y + 1 = 4 * (n / 1460) := by omega
  rcases hcycle with hcycle | hcycle
  · have hhundred : y / 100 = n / 1460 / 25 := by omega
    have hcentury : n / 36524 ≤ n / 1460 / 25 := by omega
    have hcentury' : n / 1460 / 25 ≤ n / 36524 + 1 := by omega
    rw [hhundred, hcycle]
    refine ⟨?_, ?_, ?_⟩ <;> omega
  · have hhundred : y / 100 = (n / 1460 - 1) / 25 := by omega
    have hfour : y / 4 = n / 1460 - 1 := by omega
    have hcentury : (n / 1460 - 1) / 25 ≤ n / 36524 := by omega
    have hlast : n / 146096 = 0 ∨ n = 146096 := by omega
    rw [hhundred, hfour]
    refine ⟨by omega, by omega, ?_⟩
    rcases hlast with hlast | rfl
    · omega
    · omega

theorem month_bounds {n month : Nat} (h : n ≤ 365) (hmonth : (5 * n + 2) / 153 = month) :
    month < 12 ∧ daysBeforeMonth month ≤ n ∧ n - daysBeforeMonth month < 31 := by
  simp only [daysBeforeMonth]
  omega

-- The month of a year that starts in January, from the month counted from March.
def civilMonth (month : Nat) : Nat := if month < 10 then month + 3 else month - 9

theorem civilMonth_bounds {month : Nat} (h : month < 12) :
    civilMonth month ≤ 12 ∧ (civilMonth month + 9) % 12 = month := by
  unfold civilMonth
  split <;> omega

-- A date by the place of its year in an era, with months counted from March, and its day count.
def inEra (era : Int) (year month day : Nat) : Date :=
  ⟨era * 400 + year + (if civilMonth month ≤ 2 then 1 else 0), civilMonth month, day⟩

def daysInEra (era : Int) (year month day : Nat) : Int :=
  era * daysPerEra + (year * 365 + year / 4 - year / 100 + (daysBeforeMonth month + day - 1) : Nat)
    - eraOffset

theorem exists_inEra (days : Int) : ∃ era year month day, year < 400 ∧ month < 12 ∧
    (1 ≤ day ∧ day ≤ 31) ∧ ofDays days = inEra era year month day ∧
    days = daysInEra era year month day := by
  have hera : (days + eraOffset).fdiv daysPerEra * daysPerEra + (days + eraOffset).fmod daysPerEra =
      days + eraOffset := by
    rw [Int.mul_comm]
    exact Int.mul_fdiv_add_fmod _ _
  have hpos : 0 ≤ (days + eraOffset).fmod daysPerEra := Int.fmod_nonneg_of_pos _ (by decide)
  have hlt : (days + eraOffset).fmod daysPerEra < 146097 := Int.fmod_lt_of_pos _ (by decide)
  simp only [ofDays]
  generalize (days + eraOffset).fdiv daysPerEra = era at *
  generalize hn : ((days + eraOffset).fmod daysPerEra).toNat = n at *
  generalize hyear : (n - n / 1460 + n / 36524 - n / 146096) / 365 = year at *
  obtain ⟨hyear, hbefore, hleft⟩ := yearOfEra_bounds (by omega) hyear
  generalize hday : n - (365 * year + year / 4 - year / 100) = day at *
  generalize hmonth : (5 * day + 2) / 153 = month at *
  obtain ⟨hmonth, hstart, hend⟩ := month_bounds hleft hmonth
  refine ⟨era, year, month, day - daysBeforeMonth month + 1, hyear, hmonth, by omega, rfl, ?_⟩
  simp only [daysInEra]
  omega

theorem toDays_inEra (era : Int) {year month : Nat} (day : Nat) (hyear : year < 400)
    (hmonth : month < 12) : toDays (inEra era year month day) = daysInEra era year month day := by
  have hshifted : (if (inEra era year month day).month ≤ 2 then (inEra era year month day).year - 1
      else (inEra era year month day).year) = era * 400 + year := by
    simp only [inEra]
    split <;> omega
  have hcivil : ((inEra era year month day).month + 9) % 12 = month := (civilMonth_bounds hmonth).2
  have hday : (inEra era year month day).day = day := rfl
  have hdiv : (era * 400 + (year : Int)).fdiv 400 = era := by
    rw [Int.fdiv_eq_ediv_of_nonneg _ (by decide)]
    omega
  have hmod : ((era * 400 + (year : Int)).fmod 400).toNat = year := by
    rw [Int.fmod_eq_emod_of_nonneg _ (by decide)]
    omega
  simp only [toDays, hshifted, hcivil, hday, hdiv, hmod, daysInEra]

theorem toDays_ofDays (days : Int) : toDays (ofDays days) = days := by
  obtain ⟨era, year, month, day, hyear, hmonth, -, hdate, hdays⟩ := exists_inEra days
  rw [hdate, toDays_inEra era day hyear hmonth, ← hdays]

theorem ofDays_bounds (days : Int) : (ofDays days).month < 100 ∧ (ofDays days).day < 100 := by
  obtain ⟨era, year, month, day, -, hmonth, ⟨-, hday⟩, hdate, -⟩ := exists_inEra days
  have hcivil := (civilMonth_bounds hmonth).1
  rw [hdate]
  simp only [inEra]
  omega

-- Signs count as zeros among digits, so that the digits of a year are its distance from the year 0.
theorem digitsValue_yearText (year : Int) : Text.digitsValue (yearText year).toList = year.natAbs := by
  have hsign : ∀ sign ∈ ["+", "-"], ∀ text : String,
      Text.digitsValue (sign ++ text).toList = Text.digitsValue text.toList := by
    simp [Text.digitsValue]
  unfold yearText
  split
  · rw [hsign "+" (by simp), Nat.toList_repr, Text.digitsValue_toDigits]
  · split
    · rw [hsign "-" (by simp), Text.digitsValue_padded]
    · exact Text.digitsValue_padded 4 year.natAbs

theorem mem_yearText {year : Int} {c : Char} (h : c ∈ (yearText year).toList) :
    Text.isDigit c = true ∨ c = '+' ∨ c = '-' := by
  unfold yearText at h
  split at h
  · rw [String.toList_append, Nat.toList_repr, List.mem_append] at h
    rcases h with h | h
    · exact .inr (.inl (List.mem_singleton.mp h))
    · exact .inl (Text.isDigit_of_mem_toDigits h)
  · split at h
    · rw [String.toList_append, List.mem_append] at h
      rcases h with h | h
      · exact .inr (.inr (List.mem_singleton.mp h))
      · exact .inl (Text.isDigit_of_mem_padded h)
    · exact .inl (Text.isDigit_of_mem_padded h)

-- A minus sign stands in front of the years before 0, and only there.
theorem minus_mem_yearText (year : Int) : '-' ∈ (yearText year).toList ↔ year < 0 := by
  have hdigits : '-' ∉ Nat.toDigits 10 year.natAbs := fun h =>
    absurd (Text.isDigit_of_mem_toDigits h) (by decide)
  have hpadded : '-' ∉ (Text.padded 4 year.natAbs).toList := fun h =>
    absurd (Text.isDigit_of_mem_padded h) (by decide)
  unfold yearText
  split
  · simp [hdigits]
    omega
  · split
    · simpa
    · simp only [hpadded, false_iff]
      assumption

theorem yearText_inj {year other : Int} (h : yearText year = yearText other) : year = other := by
  have hsign := minus_mem_yearText year
  rw [h, minus_mem_yearText] at hsign
  have hvalue := digitsValue_yearText year
  rw [h, digitsValue_yearText] at hvalue
  omega

end Date

namespace Instant

variable {t u : Instant}

theorem stamp_congr (h : t.seconds = u.seconds) : t.stamp = u.stamp := by
  simp only [stamp, days, secondOfDay, h]

theorem seconds_eq (t : Instant) : t.seconds = t.nanos / 1000000000 :=
  Int.fdiv_eq_ediv_of_nonneg t.nanos (by decide)

theorem seconds_ofSeconds (seconds : Int) : (ofSeconds seconds).seconds = seconds := by
  rw [seconds_eq]
  simp only [ofSeconds, Span.second]
  omega

-- Only whole seconds are written.
theorem stamp_ofSeconds (t : Instant) : (ofSeconds t.seconds).stamp = t.stamp :=
  stamp_congr (seconds_ofSeconds t.seconds)

theorem dateText_inj {days other : Int}
    (h : dateText (Date.ofDays days) = dateText (Date.ofDays other)) : days = other := by
  obtain ⟨hmonth, hday⟩ := Date.ofDays_bounds days
  obtain ⟨hmonth', hday'⟩ := Date.ofDays_bounds other
  obtain ⟨h, hsameDay⟩ := Text.append_padded_inj "-" hday hday' h
  obtain ⟨h, hsameMonth⟩ := Text.append_padded_inj "-" hmonth hmonth' h
  have hdate : Date.ofDays days = Date.ofDays other :=
    Date.ext (Date.yearText_inj h) hsameMonth hsameDay
  rw [← Date.toDays_ofDays days, hdate, Date.toDays_ofDays]

theorem append_clockText_inj {front other : String} {m n : Nat} (hm : m < 86400) (hn : n < 86400)
    (h : front ++ "T" ++ clockText m = other ++ "T" ++ clockText n) : front = other ∧ m = n := by
  simp only [clockText, ← String.append_assoc] at h
  obtain ⟨h, hsecond⟩ := Text.append_padded_inj ":" (by omega) (by omega) h
  obtain ⟨h, hminute⟩ := Text.append_padded_inj ":" (by omega) (by omega) h
  obtain ⟨h, hhour⟩ := Text.append_padded_inj "T" (by omega) (by omega) h
  exact ⟨h, by omega⟩

theorem secondOfDay_lt (t : Instant) : t.secondOfDay < 86400 := by
  have hlt : t.seconds.fmod 86400 < 86400 := Int.fmod_lt_of_pos _ (by decide)
  rw [secondOfDay]
  omega

theorem seconds_eq_days (t : Instant) : t.seconds = t.days * 86400 + t.secondOfDay := by
  have hpos : 0 ≤ t.seconds.fmod 86400 := Int.fmod_nonneg_of_pos _ (by decide)
  have hsplit := Int.mul_fdiv_add_fmod t.seconds 86400
  simp only [days, secondOfDay]
  omega

-- A stamp tells the second.
theorem stamp_eq_iff : t.stamp = u.stamp ↔ t.seconds = u.seconds := by
  constructor
  · intro h
    have h := (String.append_left_inj "Z").mp h
    obtain ⟨hdate, hclock⟩ := append_clockText_inj t.secondOfDay_lt u.secondOfDay_lt h
    rw [seconds_eq_days t, seconds_eq_days u, dateText_inj hdate, hclock]
  · exact stamp_congr

-- Stamps are one line each.
theorem newline_not_mem_stamp (t : Instant) : '\n' ∉ t.stamp.toList := by
  have hpadded : ∀ width n, '\n' ∉ (Text.padded width n).toList := fun width n h =>
    absurd (Text.isDigit_of_mem_padded h) (by decide)
  have hyear : ∀ year, '\n' ∉ (Date.yearText year).toList := by
    intro year h
    rcases Date.mem_yearText h with h | h | h <;> exact absurd h (by decide)
  simp [stamp, dateText, clockText, hpadded, hyear]

end Instant

end BlobStorage
