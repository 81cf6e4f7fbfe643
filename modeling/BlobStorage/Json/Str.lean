import BlobStorage.Json.Problem
import BlobStorage.Text.Utf8

-- Strings behind their opening quotation mark.
namespace BlobStorage.Json

def shortEscape? (b : UInt8) : Option UInt8 :=
  if b = 34 ∨ b = 92 ∨ b = 47 then some b
  else if b = 98 then some 8
  else if b = 102 then some 12
  else if b = 110 then some 10
  else if b = 114 then some 13
  else if b = 116 then some 9
  else none

def hexUnit : Bytes → Except Problem (Nat × Bytes)
  | a :: b :: c :: d :: rest =>
    match [a, b, c, d].mapM Bytes.hexValue? with
    | some digits => .ok (digits.foldl (fun n v => 16 * n + v) 0, rest)
    | none => fail .invalidEscape rest
  | _ => fail .endInString []

def isLeading (unit : Nat) : Bool := 0xD800 ≤ unit && unit ≤ 0xDBFF

def isTrailing (unit : Nat) : Bool := 0xDC00 ≤ unit && unit ≤ 0xDFFF

-- The second half of a character that is written as two units.
def trailingUnit (rest : Bytes) : Except Problem (Nat × Bytes) :=
  match rest with
  | [] => fail .endInString []
  | [92] => fail .endInString []
  | 92 :: 117 :: more => do
    let (unit, more) ← hexUnit more
    if isTrailing unit then .ok (unit, more) else fail .loneSurrogate more
  | _ => fail .endInSurrogatePair rest

def unicodeEscape (rest : Bytes) : Except Problem (Char × Bytes) := do
  let (unit, rest) ← hexUnit rest
  if isTrailing unit then fail .loneSurrogate rest
  else if isLeading unit then do
    let (second, rest) ← trailingUnit rest
    .ok (Char.ofNat ((unit - 0xD800) * 1024 + (second - 0xDC00) + 0x10000), rest)
  else .ok (Char.ofNat unit, rest)

def escape : Bytes → Except Problem (Bytes × Bytes)
  | [] => fail .endInString []
  | b :: rest =>
    if b = 117 then (unicodeEscape rest).map fun (c, more) => (String.utf8EncodeChar c, more)
    else
      match shortEscape? b with
      | some meant => .ok ([meant], rest)
      | none => fail .invalidEscape rest

-- In a string that is skipped, an escape only has to have its digits.
def skipEscape : Bytes → Except Problem Bytes
  | [] => fail .endInString []
  | b :: rest =>
    if b = 117 then (hexUnit rest).map (·.2)
    else if (shortEscape? b).isSome then .ok rest
    else fail .invalidEscape rest

theorem hexUnit_rest {bytes rest : Bytes} {n : Nat} (h : hexUnit bytes = .ok (n, rest)) :
    rest.length ≤ bytes.length := by
  unfold hexUnit at h
  split at h
  · split at h
    · cases h; simp only [List.length_cons]; omega
    · simp [fail] at h
  · simp [fail] at h

theorem trailingUnit_rest {bytes rest : Bytes} {n : Nat} (h : trailingUnit bytes = .ok (n, rest)) :
    rest.length ≤ bytes.length := by
  unfold trailingUnit at h
  split at h
  · simp [fail] at h
  · simp [fail] at h
  · rename_i more
    cases hu : hexUnit more with
    | error e => simp [hu, bind, Except.bind] at h
    | ok pair =>
      obtain ⟨unit, more'⟩ := pair
      have := hexUnit_rest hu
      simp only [hu, bind, Except.bind] at h
      split at h
      · cases h; simp only [List.length_cons]; omega
      · simp [fail] at h
  · simp [fail] at h

theorem unicodeEscape_rest {bytes rest : Bytes} {c : Char} (h : unicodeEscape bytes = .ok (c, rest)) :
    rest.length ≤ bytes.length := by
  unfold unicodeEscape at h
  cases hu : hexUnit bytes with
  | error e => simp [hu, bind, Except.bind] at h
  | ok pair =>
    obtain ⟨unit, more⟩ := pair
    have hmore := hexUnit_rest hu
    simp only [hu, bind, Except.bind] at h
    split at h
    · simp [fail] at h
    · split at h
      · cases ht : trailingUnit more with
        | error e => simp [ht] at h
        | ok pair =>
          obtain ⟨second, more'⟩ := pair
          have := trailingUnit_rest ht
          simp only [ht, Except.ok.injEq, Prod.mk.injEq] at h
          rw [← h.2]
          exact Nat.le_trans this hmore
      · simp only [Except.ok.injEq, Prod.mk.injEq] at h
        rw [← h.2]
        exact hmore

theorem escape_rest {bytes piece rest : Bytes} (h : escape bytes = .ok (piece, rest)) :
    rest.length ≤ bytes.length := by
  cases bytes with
  | nil => simp [escape, fail] at h
  | cons b more =>
    simp only [escape] at h
    split at h
    · cases hu : unicodeEscape more with
      | error e => simp [hu, Except.map] at h
      | ok pair =>
        have := unicodeEscape_rest hu
        simp only [hu, Except.map] at h
        cases h
        simp only [List.length_cons]
        omega
    · split at h
      · cases h; simp
      · simp [fail] at h

theorem skipEscape_rest {bytes rest : Bytes} (h : skipEscape bytes = .ok rest) :
    rest.length ≤ bytes.length := by
  cases bytes with
  | nil => simp [skipEscape, fail] at h
  | cons b more =>
    simp only [skipEscape] at h
    split at h
    · cases hu : hexUnit more with
      | error e => simp [hu, Except.map] at h
      | ok pair =>
        have := hexUnit_rest hu
        simp only [hu, Except.map] at h
        cases h
        simp only [List.length_cons]
        omega
    · split at h
      · cases h; simp
      · simp [fail] at h

-- The bytes of a string up to its closing quotation mark, put behind those read so far (in reverse).
def stringBytes (read : Bytes) : Bytes → Except Problem (Bytes × Bytes)
  | [] => fail .endInString []
  | b :: rest =>
    if b = 34 then .ok (read.reverse, rest)
    else if b = 92 then
      match _h : escape rest with
      | .ok (piece, more) => stringBytes (piece.reverse ++ read) more
      | .error e => .error e
    else if b.toNat < 0x20 then fail .controlCharacter rest
    else stringBytes (b :: read) rest
termination_by bytes => bytes.length
decreasing_by
  · have := escape_rest _h
    simp only [List.length_cons]
    omega
  · simp

-- A string has to be UTF-8.
def string (bytes : Bytes) : Except Problem (String × Bytes) := do
  let (content, rest) ← stringBytes [] bytes
  match Text.ofUtf8? content with
  | some s => .ok (s, rest)
  | none => fail .invalidCodePoint rest

def skipString : Bytes → Except Problem Bytes
  | [] => fail .endInString []
  | b :: rest =>
    if b = 34 then .ok rest
    else if b = 92 then
      match _h : skipEscape rest with
      | .ok more => skipString more
      | .error e => .error e
    else if b.toNat < 0x20 then fail .controlCharacter rest
    else skipString rest
termination_by bytes => bytes.length
decreasing_by
  · have := skipEscape_rest _h
    simp only [List.length_cons]
    omega
  · simp

end BlobStorage.Json
