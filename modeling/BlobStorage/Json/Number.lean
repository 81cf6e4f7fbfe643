import BlobStorage.Json.Problem
import BlobStorage.Number.Shortest

namespace BlobStorage.Json

-- A number: whole ones as long as they fit 64 bits, and the rest as binary64 numbers.
inductive Number where
  | natural (n : Nat)
  | negative (n : Nat)
  | real (below : Bool) (value : Binary64)

def Number.text : Number → String
  | .natural n => "integer `" ++ Nat.repr n ++ "`"
  | .negative n => "integer `-" ++ Nat.repr n ++ "`"
  | .real below value => "floating point `" ++ (if below then "-" else "") ++ value.text ++ "`"

namespace Number

def isDigit (b : UInt8) : Bool := 48 ≤ b.toNat && b.toNat ≤ 57

-- Takes digits into a significand as long as it fits 64 bits, and gives back those that are left.
def absorb (significand : Nat) : Bytes → Nat × Bytes
  | [] => (significand, [])
  | b :: digits =>
    let next := significand * 10 + (b.toNat - 48)
    if next < Text.word64 then absorb next digits else (significand, b :: digits)

-- Multiplies by a power of ten, in steps whose powers are numbers themselves.
def scale : Nat → Binary64 → Int → Option Binary64
  | 0, value, _ => some value
  | fuel + 1, value, exponent =>
    if exponent.natAbs ≤ 308 then
      let power := Binary64.ofNat (Nat.pow 10 exponent.natAbs)
      if 0 ≤ exponent then
        match value.mul power with
        | .infinite => none
        | product => some product
      else some (value.div power)
    else if value = .finite 0 then some value
    else if 0 ≤ exponent then none
    else scale fuel (value.div (Binary64.ofNat (Nat.pow 10 308))) (exponent + 308)

def ofParts (negative : Bool) (significand : Nat) (exponent : Int) (rest : Bytes) :
    Except Problem (Number × Bytes) :=
  match scale 4 (Binary64.ofNat significand) exponent with
  | some value => .ok (.real negative value, rest)
  | none => fail .numberOutOfRange rest

def exponent (bytes : Bytes) : Except Problem (Int × Bytes) :=
  let (sign, bytes) : Int × Bytes := match bytes with
    | 43 :: rest => (1, rest)
    | 45 :: rest => (-1, rest)
    | _ => (1, bytes)
  let digits := bytes.takeWhile isDigit
  let rest := bytes.dropWhile isDigit
  match digits, bytes with
  | _ :: _, _ => .ok (sign * (digits.foldl (fun n b => n * 10 + (b.toNat - 48)) 0 : Nat), rest)
  | [], [] => fail .endInValue []
  | [], _ :: more => fail .invalidNumber more

def withExponent (negative : Bool) (significand : Nat) (places : Int) (bytes : Bytes) :
    Except Problem (Number × Bytes) :=
  match bytes with
  | b :: rest =>
    if b = 101 ∨ b = 69 then do
      let (power, rest) ← exponent rest
      ofParts negative significand (places + power) rest
    else ofParts negative significand places bytes
  | [] => ofParts negative significand places []

-- The decimals behind the point, of which there has to be one.
def withDecimals (negative : Bool) (significand dropped : Nat) (bytes : Bytes) :
    Except Problem (Number × Bytes) :=
  let digits := bytes.takeWhile isDigit
  let rest := bytes.dropWhile isDigit
  if digits = [] then if bytes = [] then fail .endInValue [] else fail .invalidNumber bytes
  else
    let (significand, left) := absorb significand digits
    withExponent negative significand ((dropped : Int) - (digits.length - left.length : Nat)) rest

-- A number behind its sign. No zero may stand in front of other digits.
def read (negative : Bool) (bytes : Bytes) : Except Problem (Number × Bytes) :=
  let digits := bytes.takeWhile isDigit
  let rest := bytes.dropWhile isDigit
  match digits with
  | [] => if bytes = [] then fail .endInValue [] else fail .invalidNumber (bytes.drop 1)
  | first :: more =>
    if first = 48 ∧ more ≠ [] then fail .invalidNumber (more ++ rest)
    else
      let (significand, left) := absorb 0 digits
      match rest with
      | 46 :: decimals => withDecimals negative significand left.length decimals
      | 101 :: _ => withExponent negative significand left.length rest
      | 69 :: _ => withExponent negative significand left.length rest
      | _ =>
        if left ≠ [] then ofParts negative significand left.length rest
        else if negative = false then .ok (.natural significand, rest)
        else if significand = 0 ∨ 0x8000000000000000 < significand then
          .ok (.real true (Binary64.ofNat significand), rest)
        else .ok (.negative significand, rest)

def skipExponent (bytes : Bytes) : Except Problem Bytes := (exponent bytes).map (·.2)

def skip (bytes : Bytes) : Except Problem Bytes :=
  let digits := bytes.takeWhile isDigit
  let rest := bytes.dropWhile isDigit
  match digits with
  | [] => fail .invalidNumber (bytes.drop 1)
  | first :: more =>
    if first = 48 ∧ more ≠ [] then fail .invalidNumber (more ++ rest)
    else
      match rest with
      | 46 :: decimals =>
        let behind := decimals.dropWhile isDigit
        if decimals.takeWhile isDigit = [] then
          if decimals = [] then fail .endInValue [] else fail .invalidNumber decimals
        else
          match behind with
          | 101 :: power => skipExponent power
          | 69 :: power => skipExponent power
          | _ => .ok behind
      | 101 :: power => skipExponent power
      | 69 :: power => skipExponent power
      | _ => .ok rest

end Number

end BlobStorage.Json
