import BlobStorage.Time.Date
import BlobStorage.Time.Span

namespace BlobStorage

structure Instant where
  nanos : Int
  deriving DecidableEq, Repr

namespace Instant

def ofSeconds (seconds : Int) : Instant := ⟨seconds * Span.second⟩

def seconds (t : Instant) : Int := t.nanos.fdiv Span.second

def after (t : Instant) (span : Span) : Instant := ⟨t.nanos + span.nanos⟩

def before (t : Instant) (span : Span) : Instant := ⟨t.nanos - span.nanos⟩

-- The last instant of the calendar: the end of the year 262142.
def last : Instant :=
  ⟨(Date.toDays ⟨262143, 1, 1⟩ * 86400) * Span.second - 1⟩

-- The instant a span later, unless that is behind the last one.
def after? (t : Instant) (span : Span) : Option Instant :=
  if (t.after span).nanos ≤ last.nanos then some (t.after span) else none

def days (t : Instant) : Int := t.seconds.fdiv 86400

def secondOfDay (t : Instant) : Nat := (t.seconds.fmod 86400).toNat

def clockText (secondOfDay : Nat) : String :=
  Text.padded 2 (secondOfDay / 3600) ++ ":" ++ Text.padded 2 (secondOfDay / 60 % 60) ++ ":"
    ++ Text.padded 2 (secondOfDay % 60)

def dateText (date : Date) : String :=
  Date.yearText date.year ++ "-" ++ Text.padded 2 date.month ++ "-" ++ Text.padded 2 date.day

def stamp (t : Instant) : String :=
  dateText (Date.ofDays t.days) ++ "T" ++ clockText t.secondOfDay ++ "Z"

-- The digits of a fraction of a second, as many groups of three as are needed.
def fractionText (nanos : Nat) : String :=
  if nanos = 0 then ""
  else if nanos % 1000000 = 0 then "." ++ Text.padded 3 (nanos / 1000000)
  else if nanos % 1000 = 0 then "." ++ Text.padded 6 (nanos / 1000)
  else "." ++ Text.padded 9 nanos

-- Date and time of day in UTC, to the nanosecond, for people to read.
def text (t : Instant) : String :=
  dateText (Date.ofDays t.days) ++ " " ++ clockText t.secondOfDay
    ++ fractionText (t.nanos.fmod Span.second).toNat ++ " UTC"

def headerText (t : Instant) : String :=
  let date := Date.ofDays t.days
  (Date.weekdayNames[Date.weekday t.days]?).getD "" ++ ", " ++ Text.padded 2 date.day ++ " "
    ++ (Date.monthNames[date.month - 1]?).getD "" ++ " " ++ Date.yearText date.year ++ " "
    ++ clockText t.secondOfDay ++ " GMT"

end Instant

end BlobStorage
