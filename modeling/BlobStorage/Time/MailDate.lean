import BlobStorage.Time.Instant
import BlobStorage.Text.Split
import BlobStorage.Text.Lower

-- Dates as mail carries them: an optional weekday, a day, a month's name, a year, a time of day and a
-- zone.
namespace BlobStorage.Instant.MailDate

def digits (least most : Nat) (cs : List Char) : Option (Nat × List Char) :=
  let found := (cs.take most).takeWhile Text.isDigit
  if least ≤ found.length then some (Text.digitsValue found, cs.drop found.length) else none

def skipBlanks (cs : List Char) : List Char := cs.dropWhile Text.isBlank

def gap (cs : List Char) : Option (List Char) :=
  match cs with
  | c :: rest => if Text.isBlank c then some (skipBlanks rest) else none
  | [] => none

def name (names : List String) (cs : List Char) : Option (Nat × List Char) :=
  let word := Text.asciiLower (String.ofList (cs.take 3))
  (names.findIdx? fun n => Text.asciiLower n == word).map fun i => (i, cs.drop 3)

-- The weekday, counted from Sunday, with its comma.
def weekday (cs : List Char) : Option (Option Nat × List Char) :=
  match name Date.weekdayNames cs with
  | none => some (none, cs)
  | some (i, rest) =>
    match rest with
    | ',' :: rest => some (some i, rest)
    | _ => none

-- Years of two digits lie between 1950 and 2049, those of three digits behind 1900.
def fullYear (length year : Nat) : Nat :=
  if length = 2 then (if year < 50 then year + 2000 else year + 1900)
  else if length = 3 then year + 1900
  else year

def year (cs : List Char) : Option (Nat × List Char) :=
  let length := (cs.takeWhile Text.isDigit).length
  if 2 ≤ length then (digits 2 length cs).map fun (y, rest) => (fullYear length y, rest) else none

def colon (cs : List Char) : Option (List Char) :=
  match skipBlanks cs with
  | ':' :: rest => some (skipBlanks rest)
  | _ => none

-- Hours, minutes and seconds; a leap second is the sixtieth.
def clock (cs : List Char) : Option ((Nat × Nat) × List Char) := do
  let (hour, rest) ← digits 2 2 cs
  let rest ← colon rest
  let (minute, rest) ← digits 2 2 rest
  let (second, rest) ← match colon rest with
    | some behind => digits 2 2 behind
    | none => some (0, rest)
  if hour < 24 ∧ minute < 60 ∧ second ≤ 60 then some ((hour * 60 + minute, second), rest) else none

def namedZones : List (String × Int) :=
  [("gmt", 0), ("ut", 0), ("z", 0), ("edt", -4), ("est", -5), ("cdt", -5), ("cst", -6), ("mdt", -6),
    ("mst", -7), ("pdt", -7), ("pst", -8)]

def signed (sign : Int) (cs : List Char) : Option (Int × List Char) := do
  let (hours, rest) ← digits 2 2 cs
  let (minutes, rest) ← digits 2 2 rest
  if minutes < 60 then some (sign * (hours * 3600 + minutes * 60 : Nat), rest) else none

-- The offset of a zone in seconds. Letters without a meaning of their own stand for no offset.
def zone (cs : List Char) : Option (Int × List Char) :=
  match cs with
  | '+' :: rest => signed 1 rest
  | '-' :: rest => signed (-1) rest
  | _ =>
    let letters := cs.takeWhile Char.isAlpha
    let rest := cs.drop letters.length
    let word := Text.asciiLower (String.ofList letters)
    match namedZones.lookup word with
    | some hours => some (hours * 3600, rest)
    | none => if letters.length = 1 ∧ word ≠ "j" then some (0, rest) else none

-- What is left behind a comment, which may hold others.
def skipComment : Nat → List Char → Option (List Char)
  | 0, rest => some rest
  | _ + 1, [] => none
  | depth + 1, '\\' :: _ :: rest => skipComment (depth + 1) rest
  | depth + 1, '(' :: rest => skipComment (depth + 2) rest
  | depth + 1, ')' :: rest => skipComment depth rest
  | depth + 1, _ :: rest => skipComment (depth + 1) rest

def endsHere : Nat → List Char → Bool
  | 0, _ => false
  | fuel + 1, cs =>
    match skipBlanks cs with
    | [] => true
    | '(' :: rest =>
      match skipComment 1 rest with
      | some behind => endsHere fuel behind
      | none => false
    | _ => false

end BlobStorage.Instant.MailDate

namespace BlobStorage.Instant

-- A whole second that a date tells. A leap second lies behind the second that it names.
structure Told where
  instant : Instant
  isLeap : Bool
  deriving DecidableEq, Repr

def Told.text (told : Told) : String :=
  let clock := clockText told.instant.secondOfDay
  dateText (Date.ofDays told.instant.days) ++ "T"
    ++ (if told.isLeap then String.ofList (clock.toList.take 6) ++ "60" else clock) ++ "Z"

-- Reads a mail date. A weekday has to fit the date.
def ofMailDate? (s : String) : Option Told := do
  let (weekday, rest) ← MailDate.weekday (MailDate.skipBlanks s.toList)
  let (day, rest) ← MailDate.digits 1 2 (MailDate.skipBlanks rest)
  let rest ← MailDate.gap rest
  let (month, rest) ← MailDate.name Date.monthNames rest
  let rest ← MailDate.gap rest
  let (year, rest) ← MailDate.year rest
  let rest ← MailDate.gap rest
  let ((minute, second), rest) ← MailDate.clock rest
  let rest ← MailDate.gap rest
  let (offset, rest) ← MailDate.zone rest
  let date : Date := ⟨year, month + 1, day⟩
  let days := date.toDays
  if 1 ≤ day ∧ day ≤ Date.daysInMonth date.year date.month
      ∧ (weekday.getD (Date.weekday days)) = Date.weekday days
      ∧ MailDate.endsHere (rest.length + 1) rest then
    some ⟨.ofSeconds (days * 86400 + minute * 60 + min second 59 - offset), second == 60⟩
  else none

end BlobStorage.Instant
