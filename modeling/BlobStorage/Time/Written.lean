import BlobStorage.Number.Binary64
import BlobStorage.Time.Span

-- Lengths of time as people write them, such as `90s`, `1.5h` or `1h30m`.
namespace BlobStorage.Span.Written

def isNumeric (c : Char) : Bool := Text.isDigit c || c == '.'

def unit? (unit : List Char) : Option Nat :=
  if unit = "ns".toList then some 1
  else if unit = "us".toList ∨ unit = "µs".toList then some 1000
  else if unit = "ms".toList then some 1000000
  else if unit = "s".toList then some 1000000000
  else if unit = "m".toList then some 60000000000
  else if unit = "h".toList then some 3600000000000
  else none

-- A number has digits, and at most one point among them.
def number? (cs : List Char) : Option Binary64 :=
  let whole := cs.takeWhile Text.isDigit
  let decimals := (cs.dropWhile Text.isDigit).drop 1
  if whole.length + decimals.length = 0 ∨ !decimals.all Text.isDigit then none
  else some (Binary64.ofDecimal (Text.digitsValue (whole ++ decimals)) decimals.length)

theorem unit?_nil : unit? [] = none := by decide

theorem length_behind_unit {cs : List Char} {nanos : Nat}
    (h : unit? ((cs.dropWhile isNumeric).takeWhile (!isNumeric ·)) = some nanos) :
    ((cs.dropWhile isNumeric).dropWhile (!isNumeric ·)).length < cs.length := by
  have hnumber := congrArg List.length
    (List.takeWhile_append_dropWhile (p := isNumeric) (l := cs))
  have hunit := congrArg List.length
    (List.takeWhile_append_dropWhile (p := (!isNumeric ·)) (l := cs.dropWhile isNumeric))
  rw [List.length_append] at hnumber hunit
  have hpos : 0 < ((cs.dropWhile isNumeric).takeWhile (!isNumeric ·)).length := by
    refine List.length_pos_iff.mpr fun hnil => ?_
    rw [hnil, unit?_nil] at h
    exact nomatch h
  omega

-- The sum of numbers with their units in nanoseconds, added up from left to right.
def total (sum : Binary64) (cs : List Char) : Option Binary64 :=
  if cs = [] then some sum
  else
    match number? (cs.takeWhile isNumeric),
        _h : unit? ((cs.dropWhile isNumeric).takeWhile (!isNumeric ·)) with
    | some number, some nanos =>
      total (sum.add (number.mul (Binary64.ofNat nanos)))
        ((cs.dropWhile isNumeric).dropWhile (!isNumeric ·))
    | _, _ => none
termination_by cs.length
decreasing_by exact length_behind_unit _h

-- The longest span that is accepted as a count of binary64 units: 2^64 nanoseconds.
def bound : Nat := Text.word64 * Binary64.one

-- The whole nanoseconds of a sum, at most as many as fit 64 bits.
def nanos? : Binary64 → Option Nat
  | .finite units =>
    if units ≤ bound then some (min (Binary64.nearest units) (Text.word64 - 1)) else none
  | .infinite => none

def message (s : String) : String :=
  "Expiration should be in the format of a duration i.e. 1h, 60m, 3600s. Got: " ++ s

end BlobStorage.Span.Written

namespace BlobStorage.Span

-- Reads a written span. The text of a refusal has the whole input.
def parse (s : String) : Except String Span :=
  match if s = "" then none else (Written.total (.finite 0) s.toList).bind Written.nanos? with
  | some nanos => .ok ⟨nanos⟩
  | none => .error (Written.message s)

end BlobStorage.Span
