import BlobStorage.Text.Lower
import BlobStorage.Url.Address

-- Names of hosts: small letters, and labels outside ASCII in their ASCII form.
namespace BlobStorage.Url.Domain

def labelDigit (n : Nat) : Char :=
  if n < 26 then Char.ofNat (97 + n) else Char.ofNat (22 + n)

def threshold (position bias : Nat) : Nat :=
  if position ≤ bias then 1 else if bias + 26 ≤ position then 26 else position - bias

def variableDigits : Nat → Nat → Nat → Nat → List Char
  | 0, _, _, _ => []
  | fuel + 1, bias, position, n =>
    let t := threshold position bias
    if n < t then [labelDigit n]
    else labelDigit (t + (n - t) % (36 - t))
      :: variableDigits fuel bias (position + 36) ((n - t) / (36 - t))

def settle : Nat → Nat → Nat → Nat
  | 0, delta, position => position + 36 * delta / (delta + 38)
  | fuel + 1, delta, position =>
    if 455 < delta then settle fuel (delta / 35) (position + 36)
    else position + 36 * delta / (delta + 38)

def adapt (delta written : Nat) (first : Bool) : Nat :=
  let scaled := if first then delta / 700 else delta / 2
  settle 32 (scaled + scaled / written) 0

structure Progress where
  output : List Char
  delta : Nat
  bias : Nat
  written : Nat

def visit (basic point : Nat) (p : Progress) (c : Char) : Progress :=
  if c.toNat < point then { p with delta := p.delta + 1 }
  else if c.toNat = point then
    { output := p.output ++ variableDigits 32 p.bias 36 p.delta
      delta := 0
      bias := adapt p.delta (p.written + 1) (p.written == basic)
      written := p.written + 1 }
  else p

def encodePoints (label : List Char) (basic : Nat) : List Nat → Nat → Progress → Progress
  | [], _, p => p
  | point :: points, next, p =>
    let p := { p with delta := p.delta + (point - next) * (p.written + 1) }
    let p := label.foldl (visit basic point) p
    encodePoints label basic points (point + 1) { p with delta := p.delta + 1 }

-- The label's ASCII characters, then the others as positions in order of their code points.
def encodeLabel (label : List Char) : List Char :=
  let basic := label.filter fun c => c.toNat < 128
  let points := ((label.filter fun c => 128 ≤ c.toNat).map Char.toNat).eraseDups.mergeSort
  (if basic = [] then [] else basic ++ ['-'])
    ++ (encodePoints label basic.length points 128 ⟨[], 0, 72, basic.length⟩).output

def asciiLabel (label : List Char) : List Char :=
  if label.all fun c => c.toNat < 128 then label else ['x', 'n', '-', '-'] ++ encodeLabel label

def isDot (c : Char) : Bool :=
  c == '.' || c == '。' || c == '．' || c == '｡'

def isForbidden (c : Char) : Bool :=
  c.toNat ≤ 0x20 || c.toNat == 0x7F || "%#/:<>?@[\\]^|".toList.contains c

def ascii? (name : String) : Option (List Char) :=
  let labels := Text.splitOn isDot (Text.lowercase name).toList
  let text := List.intercalate ['.'] (labels.map asciiLabel)
  if text.any isForbidden then none else some text

end BlobStorage.Url.Domain
