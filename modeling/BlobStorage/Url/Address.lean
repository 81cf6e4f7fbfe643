import BlobStorage.Text.Decimal
import BlobStorage.Text.Split

-- Hosts given as numbers.
namespace BlobStorage.Url

namespace Address

def digitValue? (base : Nat) (c : Char) : Option Nat :=
  let n := c.toNat
  let value :=
    if 48 ≤ n ∧ n ≤ 57 then n - 48
    else if 97 ≤ n ∧ n ≤ 102 then n - 87
    else if 65 ≤ n ∧ n ≤ 70 then n - 55
    else base
  if value < base then some value else none

def digitsValue? (base : Nat) (cs : List Char) : Option Nat :=
  (cs.mapM (digitValue? base)).map fun values => values.foldl (fun n v => n * base + v) 0

-- A number of an IPv4 address: decimal, or octal behind `0`, or hexadecimal behind `0x`.
def ipv4Number? : List Char → Option Nat
  | [] => none
  | '0' :: 'x' :: digits => digitsValue? 16 digits
  | '0' :: 'X' :: digits => digitsValue? 16 digits
  | '0' :: d :: digits => digitsValue? 8 (d :: digits)
  | digits => digitsValue? 10 digits

-- The parts of a host name; a dot at the end does not open another part.
def nameParts (name : List Char) : List (List Char) :=
  let parts := Text.splitOn (· == '.') name
  if 1 < parts.length ∧ parts.getLast? = some [] then parts.dropLast else parts

-- A host whose last part is a number can only be an IPv4 address.
def endsInNumber (name : List Char) : Bool :=
  match (nameParts name).getLast? with
  | some last => (last ≠ [] && last.all Text.isDigit) || (ipv4Number? last).isSome
  | none => false

-- Each number but the last stands for one byte, and the last for all bytes that are left.
def ipv4? (name : List Char) : Option Nat := do
  let numbers ← (nameParts name).mapM ipv4Number?
  let last ← numbers.getLast?
  let bytes := numbers.dropLast
  if numbers.length ≤ 4 ∧ last < 1 <<< (8 * (4 - bytes.length)) ∧ bytes.all (· < 256) then
    some (bytes.zipIdx.foldl (fun sum (byte, i) => sum + byte <<< (8 * (3 - i))) last)
  else none

def ipv4Text (address : Nat) : String :=
  ".".intercalate ([3, 2, 1, 0].map fun i => Nat.repr ((address >>> (8 * i)) % 256))

def ipv6Piece? (cs : List Char) : Option Nat :=
  if cs ≠ [] ∧ cs.length ≤ 4 then digitsValue? 16 cs else none

def embeddedByte? (cs : List Char) : Option Nat :=
  if cs ≠ [] ∧ cs.all Text.isDigit ∧ (cs.length = 1 ∨ cs.head? ≠ some '0')
      ∧ Text.digitsValue cs < 256 then
    some (Text.digitsValue cs)
  else none

def embedded? (cs : List Char) : Option (List Nat) :=
  match (Text.splitOn (· == '.') cs).map embeddedByte? with
  | [some a, some b, some c, some d] => some [256 * a + b, 256 * c + d]
  | _ => none

-- Pieces between colons; only the last one may be written as decimal bytes.
def ipv6Pieces? (mayEmbed : Bool) (parts : List (List Char)) : Option (List Nat) :=
  match parts.getLast? with
  | none => some []
  | some last =>
    if mayEmbed ∧ last.contains '.' then do
      let front ← parts.dropLast.mapM ipv6Piece?
      let rear ← embedded? last
      some (front ++ rear)
    else parts.mapM ipv6Piece?

def splitAtGap : List Char → Option (List Char × List Char)
  | ':' :: ':' :: rest => some ([], rest)
  | c :: rest => (splitAtGap rest).map fun (front, rear) => (c :: front, rear)
  | [] => none

-- Eight pieces of sixteen bits; one pair of colons stands for as many zeros as are missing.
def ipv6? (cs : List Char) : Option (List Nat) :=
  match splitAtGap cs with
  | some (front, rear) => do
    let left ← if front = [] then some [] else ipv6Pieces? false (Text.splitOn (· == ':') front)
    let right ← if rear = [] then some [] else ipv6Pieces? true (Text.splitOn (· == ':') rear)
    if left.length + right.length ≤ 7 then
      some (left ++ List.replicate (8 - left.length - right.length) 0 ++ right)
    else none
  | none => do
    let pieces ← ipv6Pieces? true (Text.splitOn (· == ':') cs)
    if pieces.length = 8 then some pieces else none

def zeroRun (pieces : List Nat) : Nat := (pieces.takeWhile (· == 0)).length

-- Where the longest run of at least two zeros starts, the first one of equals.
def gap? (pieces : List Nat) : Option (Nat × Nat) :=
  let runs := (List.range pieces.length).map fun i => (i, zeroRun (pieces.drop i))
  let best := runs.foldl (fun best run => if best.2 < run.2 then run else best) (0, 0)
  if 2 ≤ best.2 then some best else none

def piecesText (pieces : List Nat) : String :=
  ":".intercalate (pieces.map fun piece => String.ofList (Nat.toDigits 16 piece))

def ipv6Text (pieces : List Nat) : String :=
  match gap? pieces with
  | some (start, length) =>
    piecesText (pieces.take start) ++ "::" ++ piecesText (pieces.drop (start + length))
  | none => piecesText pieces

end Address

end BlobStorage.Url
