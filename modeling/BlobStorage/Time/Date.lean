import BlobStorage.Text.Decimal

namespace BlobStorage

-- A day of the proleptic Gregorian calendar, which has a year 0 and years before it.
structure Date where
  year : Int
  month : Nat
  day : Nat
  deriving DecidableEq, Repr

namespace Date

-- Days are counted from 1970-01-01. For the count, a year starts in March, so that a leap day is the
-- last day of its year; 400 such years have 146097 days, wherever they start.
def daysPerEra : Int := 146097

-- The first of March of the year 0 lies this many days before the first of January 1970.
def eraOffset : Int := 719468

-- Days before a month of a year that starts in March, months counted from March.
def daysBeforeMonth (month : Nat) : Nat := (153 * month + 2) / 5

def toDays (date : Date) : Int :=
  let shiftedYear : Int := if date.month ≤ 2 then date.year - 1 else date.year
  let era := shiftedYear.fdiv 400
  let yearOfEra := (shiftedYear.fmod 400).toNat
  let month := (date.month + 9) % 12
  let dayOfYear := daysBeforeMonth month + date.day - 1
  era * daysPerEra + (yearOfEra * 365 + yearOfEra / 4 - yearOfEra / 100 + dayOfYear : Nat)
    - eraOffset

def ofDays (days : Int) : Date :=
  let shifted := days + eraOffset
  let era := shifted.fdiv daysPerEra
  let dayOfEra := (shifted.fmod daysPerEra).toNat
  let yearOfEra :=
    (dayOfEra - dayOfEra / 1460 + dayOfEra / 36524 - dayOfEra / 146096) / 365
  let dayOfYear := dayOfEra - (365 * yearOfEra + yearOfEra / 4 - yearOfEra / 100)
  let shiftedMonth := (5 * dayOfYear + 2) / 153
  let month := if shiftedMonth < 10 then shiftedMonth + 3 else shiftedMonth - 9
  { year := era * 400 + yearOfEra + (if month ≤ 2 then 1 else 0)
    month := month
    day := dayOfYear - daysBeforeMonth shiftedMonth + 1 }

-- Days since Sunday.
def weekday (days : Int) : Nat := ((days + 4).fmod 7).toNat

def isLeap (year : Int) : Bool :=
  year % 4 == 0 && (year % 100 != 0 || year % 400 == 0)

def daysInMonth (year : Int) (month : Nat) : Nat :=
  if month = 2 then (if isLeap year then 29 else 28)
  else if month = 4 ∨ month = 6 ∨ month = 9 ∨ month = 11 then 30
  else 31

def weekdayNames : List String := ["Sun", "Mon", "Tue", "Wed", "Thu", "Fri", "Sat"]

def monthNames : List String :=
  ["Jan", "Feb", "Mar", "Apr", "May", "Jun", "Jul", "Aug", "Sep", "Oct", "Nov", "Dec"]

-- A year with at least four digits; beyond four digits it has a sign, as every year before 0 has.
def yearText (year : Int) : String :=
  if 9999 < year then "+" ++ Nat.repr year.natAbs
  else if year < 0 then "-" ++ Text.padded 4 year.natAbs
  else Text.padded 4 year.natAbs

end Date

end BlobStorage
