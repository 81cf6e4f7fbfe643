import BlobStorage.Bytes

namespace BlobStorage.Base64

def symbol (n : Nat) : UInt8 :=
  if n < 26 then UInt8.ofNat (65 + n)
  else if n < 52 then UInt8.ofNat (71 + n)
  else if n < 62 then UInt8.ofNat (n - 4)
  else if n = 62 then 43
  else 47

def value? (b : UInt8) : Option Nat :=
  let n := b.toNat
  if 65 ≤ n ∧ n ≤ 90 then some (n - 65)
  else if 97 ≤ n ∧ n ≤ 122 then some (n - 71)
  else if 48 ≤ n ∧ n ≤ 57 then some (n + 4)
  else if n = 43 then some 62
  else if n = 47 then some 63
  else none

def padding : UInt8 := 61

def encode : Bytes → Bytes
  | [] => []
  | [a] =>
    [symbol (a.toNat / 4), symbol (a.toNat % 4 * 16), padding, padding]
  | [a, b] =>
    [symbol (a.toNat / 4), symbol (a.toNat % 4 * 16 + b.toNat / 16),
      symbol (b.toNat % 16 * 4), padding]
  | a :: b :: c :: rest =>
    symbol (a.toNat / 4) :: symbol (a.toNat % 4 * 16 + b.toNat / 16)
      :: symbol (b.toNat % 16 * 4 + c.toNat / 64) :: symbol (c.toNat % 64) :: encode rest

-- The encoding as text; every symbol is an ASCII character.
def encodeText (bytes : Bytes) : String :=
  String.ofList ((encode bytes).map fun b => Char.ofNat b.toNat)

inductive Error where
  | invalidSymbol (byte : UInt8) (offset : Nat)
  | invalidLength (length : Nat)
  | invalidPadding
  | invalidLastSymbol (byte : UInt8) (offset : Nat)
  deriving DecidableEq, Repr

def Error.message : Error → String
  | .invalidSymbol byte offset => "Invalid symbol " ++ Nat.repr byte.toNat ++ ", offset " ++ Nat.repr offset ++ "."
  | .invalidLength length => "Invalid input length: " ++ Nat.repr length
  | .invalidPadding => "Invalid padding"
  | .invalidLastSymbol byte offset =>
    "Invalid last symbol " ++ Nat.repr byte.toNat ++ ", offset " ++ Nat.repr offset ++ "."

structure Tail where
  symbols : List (UInt8 × Nat)
  pads : Nat

-- Padding may stand behind two symbols at the earliest, and no symbol may follow it.
def scanTail (offset : Nat) (tail : Tail) : Bytes → Except Error Tail
  | [] => .ok tail
  | b :: rest =>
    if b = padding then
      if tail.symbols.length < 2 then .error (.invalidSymbol b (offset + tail.symbols.length))
      else scanTail offset { tail with pads := tail.pads + 1 } rest
    else if 0 < tail.pads then .error (.invalidSymbol padding (offset + tail.symbols.length))
    else
      match value? b with
      | none => .error (.invalidSymbol b (offset + tail.symbols.length))
      | some v => scanTail offset { tail with symbols := tail.symbols ++ [(b, v)] } rest

def decodeLast (offset : Nat) (group : Bytes) : Except Error Bytes :=
  if group = [] then .ok []
  else do
    let tail ← scanTail offset ⟨[], 0⟩ group
    if tail.symbols.length < 2 then .error (.invalidLength (offset + tail.symbols.length))
    else if tail.symbols.length + tail.pads ≠ 4 then .error .invalidPadding
    else
      match tail.symbols with
      | [(_, a), (y, b)] =>
        if b % 16 = 0 then .ok [UInt8.ofNat (a * 4 + b / 16)]
        else .error (.invalidLastSymbol y (offset + 1))
      | [(_, a), (_, b), (z, c)] =>
        if c % 4 = 0 then .ok [UInt8.ofNat (a * 4 + b / 16), UInt8.ofNat (b % 16 * 16 + c / 4)]
        else .error (.invalidLastSymbol z (offset + 2))
      | [(_, a), (_, b), (_, c), (_, d)] =>
        .ok [UInt8.ofNat (a * 4 + b / 16), UInt8.ofNat (b % 16 * 16 + c / 4),
          UInt8.ofNat (c % 4 * 64 + d)]
      | _ => .error .invalidPadding

-- Every group but the last has four symbols.
def decodeGroups (offset : Nat) : Bytes → Except Error Bytes
  | x :: y :: z :: w :: v :: rest =>
    match value? x, value? y, value? z, value? w with
    | none, _, _, _ => .error (.invalidSymbol x offset)
    | some _, none, _, _ => .error (.invalidSymbol y (offset + 1))
    | some _, some _, none, _ => .error (.invalidSymbol z (offset + 2))
    | some _, some _, some _, none => .error (.invalidSymbol w (offset + 3))
    | some a, some b, some c, some d => do
      let more ← decodeGroups (offset + 4) (v :: rest)
      .ok (UInt8.ofNat (a * 4 + b / 16) :: UInt8.ofNat (b % 16 * 16 + c / 4)
        :: UInt8.ofNat (c % 4 * 64 + d) :: more)
  | group => decodeLast offset group

-- Reads a canonical, padded encoding. A lone byte behind the last whole group that is neither a
-- symbol nor padding, such as a line end, is reported before anything else.
def decode (text : Bytes) : Except Error Bytes :=
  match text.getLast? with
  | some last =>
    if text.length % 4 = 1 ∧ last ≠ padding ∧ value? last = none then
      .error (.invalidSymbol last (text.length - 1))
    else decodeGroups 0 text
  | none => .ok []

end BlobStorage.Base64
