import BlobStorage.Bytes

namespace BlobStorage.Text

def utf8 (s : String) : Bytes :=
  s.toList.flatMap String.utf8EncodeChar

namespace Utf8

-- A continuation byte carries six bits of a scalar value.
def isContinuation (b : UInt8) : Bool :=
  0x80 ≤ b.toNat && b.toNat ≤ 0xBF

-- The second byte of a sequence is restricted so that no scalar value has two spellings,
-- none is a surrogate, and none lies above the last one.
def secondFits (first second : UInt8) : Bool :=
  isContinuation second &&
    (if first.toNat = 0xE0 then 0xA0 ≤ second.toNat
     else if first.toNat = 0xED then second.toNat ≤ 0x9F
     else if first.toNat = 0xF0 then 0x90 ≤ second.toNat
     else if first.toNat = 0xF4 then second.toNat ≤ 0x8F
     else true)

def payload (b : UInt8) : Nat := b.toNat % 64

-- Reads one scalar value behind its first byte. A broken sequence gives `none` and takes the longest
-- start of a sequence that could have become one.
def readScalar (first : UInt8) (rest : Bytes) : Option Char × Bytes :=
  if first.toNat < 0x80 then (some (Char.ofNat first.toNat), rest)
  else if first.toNat < 0xC2 then (none, rest)
  else if first.toNat < 0xE0 then
    match rest with
    | b :: rest' =>
      if isContinuation b then (some (Char.ofNat (first.toNat % 32 * 64 + payload b)), rest')
      else (none, rest)
    | [] => (none, rest)
  else if first.toNat < 0xF0 then
    match rest with
    | b :: c :: rest' =>
      if secondFits first b then
        if isContinuation c then
          (some (Char.ofNat ((first.toNat % 16 * 64 + payload b) * 64 + payload c)), rest')
        else (none, c :: rest')
      else (none, rest)
    | [b] => if secondFits first b then (none, []) else (none, rest)
    | [] => (none, rest)
  else if first.toNat < 0xF5 then
    match rest with
    | b :: c :: d :: rest' =>
      if secondFits first b then
        if isContinuation c then
          if isContinuation d then
            (some (Char.ofNat
              (((first.toNat % 8 * 64 + payload b) * 64 + payload c) * 64 + payload d)), rest')
          else (none, d :: rest')
        else (none, c :: d :: rest')
      else (none, rest)
    | [b, c] =>
      if secondFits first b then if isContinuation c then (none, []) else (none, [c])
      else (none, rest)
    | [b] => if secondFits first b then (none, []) else (none, rest)
    | [] => (none, rest)
  else (none, rest)

theorem readScalar_length_le (first : UInt8) (rest : Bytes) :
    (readScalar first rest).2.length ≤ rest.length := by
  unfold readScalar
  repeat' split
  all_goals simp only [List.length_cons, List.length_nil]
  all_goals omega

def scalars : Bytes → List (Option Char)
  | [] => []
  | b :: rest => (readScalar b rest).1 :: scalars (readScalar b rest).2
termination_by bytes => bytes.length
decreasing_by
  have := readScalar_length_le b rest
  simp only [List.length_cons]
  omega

end Utf8

def ofUtf8? (bytes : Bytes) : Option String :=
  ((Utf8.scalars bytes).mapM id).map String.ofList

-- The text of any byte string, each broken sequence replaced by U+FFFD.
def ofUtf8Lossy (bytes : Bytes) : String :=
  String.ofList ((Utf8.scalars bytes).map (·.getD '\uFFFD'))

end BlobStorage.Text
