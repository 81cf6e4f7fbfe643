import BlobStorage.Number.Binary64

namespace BlobStorage.Binary64

structure Scientific where
  digits : Nat
  exponent : Int

namespace Shortest

-- The decimals that read back as a count form an interval around it: half a step to each side, and
-- half as much below a power of two. All bounds are in quarters of a unit.
def lowerBound (units : Nat) : Nat :=
  let step := 1 <<< excess units
  if units = step <<< 52 ∧ 1 < step then 4 * units - step else 4 * units - 2 * step

def upperBound (units : Nat) : Nat := 4 * units + 2 <<< excess units

-- The ends of the interval round to the even neighbour.
def endsIncluded (units : Nat) : Bool := (units >>> excess units) % 2 == 0

def readsBack (units digits n d : Nat) : Bool :=
  let scaled := 4 * digits * n
  if endsIncluded units then
    lowerBound units * d ≤ scaled && scaled ≤ upperBound units * d
  else
    lowerBound units * d < scaled && scaled < upperBound units * d

def leadingExponent (units : Nat) : Int :=
  if one ≤ units then
    ((Nat.toDigits 10 (units / one)).length : Int) - 1
  else
    -- The quotient has exactly as many digits as the number has leading decimal zeros to skip.
    let skipped := (Nat.toDigits 10 (one / units)).length
    if units * Nat.pow 10 (skipped - 1) < one then -(skipped : Int) else 1 - (skipped : Int)

def spacing (exponent : Int) (count : Nat) : Nat × Nat :=
  let power := exponent - count + 1
  if 0 ≤ power then (Nat.pow 10 power.toNat * one, 1) else (one, Nat.pow 10 (-power).toNat)

-- Of the two decimals of a grid around the count, the nearer one that reads back.
def onGrid? (units : Nat) (grid : Nat × Nat) : Option Nat :=
  let below := units * grid.2 / grid.1
  let twice := 2 * (units * grid.2 - below * grid.1)
  let upFirst := grid.1 < twice || (twice == grid.1 && below % 2 == 1)
  let candidates := if upFirst then [below + 1, below] else [below, below + 1]
  candidates.find? fun digits => readsBack units digits grid.1 grid.2

def dropZeros : Nat → Nat → Nat
  | 0, n => n
  | fuel + 1, n => if n % 10 = 0 ∧ n ≠ 0 then dropZeros fuel (n / 10) else n

end Shortest

def shortest (units : Nat) : Scientific :=
  let exponent := Shortest.leadingExponent units
  let found := (List.range 17).findSome? fun i =>
    (Shortest.onGrid? units (Shortest.spacing exponent (i + 1))).map fun digits => (digits, i)
  match found with
  | some (digits, i) =>
    let written := (Nat.toDigits 10 digits).length
    ⟨Shortest.dropZeros 17 digits, exponent + ((written : Int) - ((i : Int) + 1))⟩
  | none => ⟨0, 0⟩

-- A number as JSON writers print it: positional with a decimal point between 10^-5 and 10^16, and
-- otherwise with a signed exponent of at least two digits.
def text : Binary64 → String
  | .infinite => "inf"
  | .finite 0 => "0.0"
  | .finite units =>
    let s := shortest units
    let digits := Nat.toDigits 10 s.digits
    let count : Int := digits.length
    if 0 ≤ s.exponent ∧ s.exponent < 16 then
      let whole := (s.exponent + 1).toNat
      let padded := digits ++ List.replicate (whole - digits.length) '0'
      let fraction := padded.drop whole
      String.ofList (padded.take whole ++ ['.'] ++ (if fraction = [] then ['0'] else fraction))
    else if -5 ≤ s.exponent ∧ s.exponent < 0 then
      String.ofList (['0', '.'] ++ List.replicate (-s.exponent - 1).toNat '0' ++ digits)
    else
      let power := s.exponent.natAbs
      String.ofList
        (digits.take 1 ++ (if count = 1 then [] else '.' :: digits.drop 1) ++ ['e']
          ++ [if s.exponent < 0 then '-' else '+']
          ++ (if power < 10 then ['0'] else []) ++ Nat.toDigits 10 power)

end BlobStorage.Binary64
