namespace BlobStorage

-- A non-negative binary64 number: a whole count of the smallest positive one, which is 2^-1074, or
-- infinity. Every operation below is exact arithmetic on that count, rounded once.
inductive Binary64 where
  | finite (units : Nat)
  | infinite
  deriving DecidableEq, Repr

namespace Binary64

def one : Nat := 1 <<< 1074

def limit : Nat := 1 <<< 2098

-- `n / d` rounded to a whole number, a half going to the even neighbour.
def roundQuotient (n d : Nat) : Nat :=
  let m := n / d
  let twice := 2 * (n % d)
  if twice < d then m else if d < twice then m + 1 else m + m % 2

-- How many low bits of a count do not fit the 53 bits of a number.
def excess (units : Nat) : Nat := Nat.log2 units - 52

def round (n d : Nat) : Binary64 :=
  let shift := excess (n / d)
  let units := roundQuotient n (d <<< shift) <<< shift
  if units < limit then .finite units else .infinite

def ofRatio (n d : Nat) : Binary64 := round (n * one) d

def ofNat (n : Nat) : Binary64 := ofRatio n 1

def ofDecimal (digits places : Nat) : Binary64 := ofRatio digits (Nat.pow 10 places)

def add : Binary64 → Binary64 → Binary64
  | .finite a, .finite b => round (a + b) 1
  | _, _ => .infinite

-- The product; infinity is only ever multiplied by a positive number.
def mul : Binary64 → Binary64 → Binary64
  | .finite a, .finite b => round (a * b) one
  | _, _ => .infinite

def div : Binary64 → Binary64 → Binary64
  | .finite a, .finite b => round (a * one) b
  | .finite _, .infinite => .finite 0
  | .infinite, _ => .infinite

-- The nearest whole number of a count, a half going up.
def nearest (units : Nat) : Nat := (2 * units + one) / (2 * one)

end Binary64

end BlobStorage
