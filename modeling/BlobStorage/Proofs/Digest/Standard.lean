import BlobStorage.Proofs.Digest.Pieces
import BlobStorage.Proofs.Digest.Sines
import Mathlib.Data.Fin.VecNotation
import Mathlib.Data.List.GetD

-- MD5 as it is published, on bits and registers, and that it is what the blocks of bytes give.
namespace BlobStorage.Digest.Md5.Standard

-- The bits of one of a number's bytes, the most significant first.
def byteBits (n i : Nat) : List Bool := (List.range 8).map fun k => n.testBit (8 * i + (7 - k))

def bits (bytes : Bytes) : List Bool := bytes.flatMap fun byte => byteBits byte.toNat 0

-- The 64 low bits of a number, its bytes from the least significant one on.
def lengthBits (n : Nat) : List Bool := (List.range 8).flatMap (byteBits n)

-- A message with a one, zeros and its length behind it.
def padded (message : List Bool) (zeros : Nat) : List Bool :=
  message ++ true :: (List.replicate zeros false ++ lengthBits message.length)

-- A byte of a message, its most significant bit first, and a word of it, its least significant byte
-- first.
def byteAt (message : List Bool) (p : Nat) : Nat :=
  ((List.range 8).map fun k => (message.getD (8 * p + k) false).toNat * 2 ^ (7 - k)).sum

def word (message : List Bool) (j : Nat) : UInt32 :=
  UInt32.ofNat (byteAt message (4 * j) + 256 * (byteAt message (4 * j + 1) +
    256 * (byteAt message (4 * j + 2) + 256 * byteAt message (4 * j + 3))))

def rotated (x : UInt32) (count : Nat) : UInt32 := ⟨x.toBitVec.rotateLeft count⟩

-- One of the four rounds: its function, and the words and shifts of its 16 operations, of which the
-- shifts come round again.
structure Round where
  mix : UInt32 → UInt32 → UInt32 → UInt32
  words : List Nat
  shifts : List Nat

def round : Nat → Round
  | 0 => ⟨fun x y z => (x &&& y) ||| (~~~x &&& z),
      [0, 1, 2, 3, 4, 5, 6, 7, 8, 9, 10, 11, 12, 13, 14, 15], [7, 12, 17, 22]⟩
  | 1 => ⟨fun x y z => (x &&& z) ||| (y &&& ~~~z),
      [1, 6, 11, 0, 5, 10, 15, 4, 9, 14, 3, 8, 13, 2, 7, 12], [5, 9, 14, 20]⟩
  | 2 => ⟨fun x y z => x ^^^ y ^^^ z,
      [5, 8, 11, 14, 1, 4, 7, 10, 13, 0, 3, 6, 9, 12, 15, 2], [4, 11, 16, 23]⟩
  | _ => ⟨fun x y z => y ^^^ (x ||| ~~~z),
      [0, 7, 14, 5, 12, 3, 10, 1, 8, 15, 6, 13, 4, 11, 2, 9], [6, 10, 15, 21]⟩

-- The integer part of 2^32 times the absolute sine of a number of radians.
noncomputable def constant (i : Nat) : UInt32 := UInt32.ofNat ⌊4294967296 * |Real.sin i|⌋₊

-- The four registers.
abbrev Registers := Fin 4 → UInt32

def start : Registers := ![0x67452301, 0xefcdab89, 0x98badcfe, 0x10325476]

-- One operation. It changes the first register, then the fourth, the third, the second, and so on; the
-- other three follow that one in their circle.
noncomputable def operate (words : Nat → UInt32) (r : Registers) (n : Nat) : Registers :=
  let a := -Fin.ofNat 4 n
  Function.update r a
    (r (a + 1) +
      rotated
        (r a + (round (n / 16)).mix (r (a + 1)) (r (a + 2)) (r (a + 3)) +
          words ((round (n / 16)).words.getD (n % 16) 0) + constant (n + 1))
        ((round (n / 16)).shifts.getD (n % 4) 0))

-- A block of 16 words: 64 operations, and what was in the registers before is added.
noncomputable def takeBlock (words : Nat → UInt32) (r : Registers) : Registers := fun a =>
  (List.range 64).foldl (operate words) r a + r a

noncomputable def process (message : List Bool) : Registers :=
  (List.range (message.length / 512)).foldl
    (fun r i => takeBlock (fun k => word message (16 * i + k)) r) start

-- The registers one after the other, each from its least significant byte on.
def output (r : Registers) : Bytes :=
  (List.finRange 4).flatMap fun a => (List.range 4).map fun j => UInt8.ofNat ((r a).toNat / 256 ^ j)

-- The digest of a message. There are as few zeros as make room for the length in the last block.
def Digests (message digest : Bytes) : Prop :=
  ∃ zeros < 512, ((bits message).length + 1 + zeros) % 512 = 448 ∧
    digest = output (process (padded (bits message) zeros))

section Bits

theorem bits_cons (byte : UInt8) (bytes : Bytes) :
    bits (byte :: bytes) = byteBits byte.toNat 0 ++ bits bytes := rfl

theorem bits_append (front behind : Bytes) : bits (front ++ behind) = bits front ++ bits behind :=
  List.flatMap_append

theorem length_byteBits (n i : Nat) : (byteBits n i).length = 8 := by
  rw [byteBits, List.length_map, List.length_range]

theorem length_bits (bytes : Bytes) : (bits bytes).length = 8 * bytes.length := by
  induction bytes with
  | nil => rfl
  | cons byte bytes ih =>
    rw [bits_cons, List.length_append, ih, length_byteBits, List.length_cons]
    omega

theorem bits_zeros (count : Nat) :
    bits (List.replicate count 0) = List.replicate (8 * count) false := by
  induction count with
  | zero => rfl
  | succ count ih =>
    have hzero : byteBits (0 : UInt8).toNat 0 = List.replicate 8 false := by decide
    rw [List.replicate_succ, bits_cons, ih, hzero, List.replicate_append_replicate, Nat.mul_succ,
      Nat.add_comm 8]

theorem byteBits_low (n : Nat) : byteBits (UInt8.ofNat (n % 256)).toNat 0 = byteBits n 0 := by
  refine List.map_congr_left fun k hk => ?_
  have hlow : 8 * 0 + (7 - k) < 8 := by omega
  have hbyte : n % 256 % 2 ^ 8 = n % 2 ^ 8 := Nat.mod_mod n 256
  rw [UInt8.toNat_ofNat', hbyte, Nat.testBit_mod_two_pow, decide_eq_true hlow, Bool.true_and]

theorem byteBits_high (n i : Nat) : byteBits (n / 256) i = byteBits n (i + 1) := by
  refine List.map_congr_left fun k _ => ?_
  have hplace : 8 + (8 * i + (7 - k)) = 8 * (i + 1) + (7 - k) := by omega
  have hpow : (256 : Nat) = 2 ^ 8 := rfl
  rw [hpow, Nat.testBit_div_two_pow, ← hplace, Nat.add_comm 8]

theorem bits_littleEndian (width n : Nat) :
    bits (littleEndian width n) = (List.range width).flatMap (byteBits n) := by
  induction width generalizing n with
  | zero => rfl
  | succ width ih =>
    have hhigh : byteBits (n / 256) = fun i => byteBits n (i + 1) := funext (byteBits_high n)
    rw [littleEndian, bits_cons, ih, byteBits_low, hhigh, List.range_succ_eq_map, List.flatMap_cons,
      List.flatMap_map]

theorem getD_bits (bytes : Bytes) (p : Nat) :
    (bits bytes).getD p false = (bytes.getD (p / 8) 0).toNat.testBit (7 - p % 8) := by
  induction bytes generalizing p with
  | nil => simp [bits]
  | cons byte bytes ih =>
    have hlength := length_byteBits byte.toNat 0
    rw [bits_cons]
    by_cases hp : p < 8
    · have hdiv : p / 8 = 0 := by omega
      have hmod : p % 8 = p := by omega
      rw [List.getD_append _ _ _ _ (by omega), hdiv, hmod, List.getD_cons_zero, byteBits]
      simp [List.getD_eq_getElem?_getD, hp]
    · have hdiv : p / 8 = (p - 8) / 8 + 1 := by omega
      have hmod : p % 8 = (p - 8) % 8 := by omega
      rw [List.getD_append_right _ _ _ _ (by omega), hlength, hdiv, hmod, List.getD_cons_succ,
        ih (p - 8)]

-- The padding in bits is the ending in bytes.
theorem padded_bits (message : Bytes) {zeros : Nat} (hzeros : zeros < 512)
    (haligned : ((bits message).length + 1 + zeros) % 512 = 448) :
    padded (bits message) zeros = bits (message ++ ending message.length) := by
  have hlength := length_bits message
  have hcount : zeros = 7 + 8 * zeroCount message.length := by
    rw [hlength] at haligned
    rw [zeroCount]
    omega
  have hmark : bits [0x80] = true :: List.replicate 7 false := by decide
  rw [padded, bits_append, ending, bits_append, bits_append, bits_zeros, bits_littleEndian, hmark,
    hlength, hcount, ← List.replicate_append_replicate]
  simp only [lengthBits, List.cons_append, List.append_assoc]

theorem byte_sum : ∀ b < 256,
    ((List.range 8).map fun k => (b.testBit (7 - k)).toNat * 2 ^ (7 - k)).sum = b := by
  decide +kernel

theorem byteAt_bits (bytes : Bytes) (p : Nat) : byteAt (bits bytes) p = (bytes.getD p 0).toNat := by
  have hbits : ∀ k ∈ List.range 8,
      ((bits bytes).getD (8 * p + k) false).toNat * 2 ^ (7 - k) =
        ((bytes.getD p 0).toNat.testBit (7 - k)).toNat * 2 ^ (7 - k) := by
    intro k hk
    have hk := List.mem_range.mp hk
    have hdiv : (8 * p + k) / 8 = p := by omega
    have hmod : (8 * p + k) % 8 = k := by omega
    rw [getD_bits, hdiv, hmod]
  rw [byteAt, List.map_congr_left hbits, byte_sum _ (UInt8.toNat_lt _)]

theorem getD_littleWords (bytes : Bytes) {j : Nat} (h : 4 * (j + 1) ≤ bytes.length) :
    (littleWords bytes).getD j 0 = word (bits bytes) j := by
  simp only [word, byteAt_bits]
  induction bytes using littleWords.induct generalizing j with
  | case1 a b c d rest ih =>
    cases j with
    | zero => rfl
    | succ j =>
      have hindex : 4 * (j + 1) = 4 * j + 4 := Nat.mul_succ 4 j
      simp only [List.length_cons] at h
      rw [littleWords, List.getD_cons_succ, ih (by omega), hindex]
      rfl
  | case2 bytes hshort =>
    match bytes, h with
    | a :: b :: c :: d :: rest, _ => exact (hshort a b c d rest rfl).elim

end Bits

section Blocks

-- The words of a block.
theorem word_block (bytes : Bytes) {i k : Nat} (hk : k < 16) (hi : 64 * (i + 1) ≤ bytes.length) :
    (littleWords ((bytes.drop (64 * i)).take 64)).getD k 0 = word (bits bytes) (16 * i + k) := by
  have hlength : ((bytes.drop (64 * i)).take 64).length = 64 := by
    rw [List.length_take, List.length_drop]
    omega
  have hbyte : ∀ q < 64, ((bytes.drop (64 * i)).take 64).getD q 0 = bytes.getD (64 * i + q) 0 := by
    intro q hq
    simp only [List.getD_eq_getElem?_getD, List.getElem?_take, List.getElem?_drop, hq, if_true]
  have hindex : 4 * (16 * i + k) = 64 * i + 4 * k := by omega
  rw [getD_littleWords _ (by omega)]
  simp only [word, byteAt_bits, hindex, Nat.add_assoc]
  rw [hbyte _ (by omega), hbyte _ (by omega), hbyte _ (by omega), hbyte _ (by omega)]

theorem blocks_eq (count : Nat) (bytes : Bytes) :
    blocks count bytes = (List.range count).map fun i => (bytes.drop (64 * i)).take 64 := by
  induction count generalizing bytes with
  | zero => rfl
  | succ count ih =>
    have hdrop : ∀ i, (bytes.drop 64).drop (64 * i) = bytes.drop (64 * (i + 1)) := by
      intro i
      rw [List.drop_drop, Nat.mul_succ, Nat.add_comm]
    rw [blocks, ih, List.range_succ_eq_map, List.map_cons, List.map_map]
    simp only [hdrop, Function.comp_def, Nat.mul_zero, List.drop_zero, Nat.succ_eq_add_one]

-- The chaining value as registers.
def registers (s : State) : Registers := ![s.a, s.b, s.c, s.d]

-- The parts of a state are the registers, from the one on that the next operation changes.
structure Turned (n : Nat) (s : State) (r : Registers) : Prop where
  a : s.a = r (-Fin.ofNat 4 n)
  b : s.b = r (-Fin.ofNat 4 n + 1)
  c : s.c = r (-Fin.ofNat 4 n + 2)
  d : s.d = r (-Fin.ofNat 4 n + 3)

theorem rotateLeft_eq (x : UInt32) {count : Nat} (hpos : 0 < count) (h : count < 32) :
    rotateLeft x (UInt32.ofNat count) = rotated x count := by
  have hcount : (UInt32.ofNat count).toNat = count :=
    UInt32.toNat_ofNat_of_lt' (by simp only [UInt32.size]; omega)
  have hle : UInt32.ofNat count ≤ 32 := by
    rw [UInt32.le_iff_toNat_le, hcount]
    exact h.le
  have hback : (32 - UInt32.ofNat count).toNat = 32 - count := by
    rw [UInt32.toNat_sub_of_le _ _ hle, hcount]
    rfl
  have hrotated : (rotated x count).toNat = (x.toBitVec.rotateLeft count).toNat := rfl
  have hleft : count % 32 = count := by omega
  have hright : (32 - count) % 32 = 32 - count := by omega
  apply UInt32.toNat_inj.mp
  rw [hrotated, BitVec.rotateLeft_eq_rotateLeftAux_of_lt h, BitVec.rotateLeftAux, rotateLeft,
    UInt32.toNat_or, UInt32.toNat_shiftLeft, UInt32.toNat_shiftRight, BitVec.toNat_or,
    BitVec.toNat_shiftLeft, BitVec.toNat_ushiftRight, hcount, hback, hleft, hright]
  rfl

theorem mix_eq (s : State) {n : Nat} (h : n < 64) :
    mix s n = ((round (n / 16)).mix s.b s.c s.d, (round (n / 16)).words.getD (n % 16) 0) := by
  have hword : ∀ n < 64, (round (n / 16)).words.getD (n % 16) 0 =
      if n < 16 then n else if n < 32 then (5 * n + 1) % 16 else if n < 48 then (3 * n + 5) % 16
        else 7 * n % 16 := by
    decide
  rw [hword n h]
  by_cases hfirst : n < 16
  · have hround : n / 16 = 0 := by omega
    rw [mix, if_pos hfirst, if_pos hfirst, hround]
    rfl
  · by_cases hsecond : n < 32
    · have hround : n / 16 = 1 := by omega
      have hselect : (s.d &&& s.b) ||| (~~~s.d &&& s.c) = (s.b &&& s.d) ||| (s.c &&& ~~~s.d) := by
        rw [UInt32.and_comm s.d, UInt32.and_comm (~~~s.d)]
      rw [mix, if_neg hfirst, if_neg hfirst, if_pos hsecond, if_pos hsecond, hround, hselect]
      rfl
    · by_cases hthird : n < 48
      · have hround : n / 16 = 2 := by omega
        rw [mix, if_neg hfirst, if_neg hfirst, if_neg hsecond, if_neg hsecond, if_pos hthird,
          if_pos hthird, hround]
        rfl
      · have hround : n / 16 = 3 := by omega
        rw [mix, if_neg hfirst, if_neg hfirst, if_neg hsecond, if_neg hsecond, if_neg hthird,
          if_neg hthird, hround]
        rfl

theorem shifts_eq : ∀ n < 64,
    shifts.getD (n / 16 * 4 + n % 4) 0 = UInt32.ofNat ((round (n / 16)).shifts.getD (n % 4) 0) ∧
      0 < (round (n / 16)).shifts.getD (n % 4) 0 ∧ (round (n / 16)).shifts.getD (n % 4) 0 < 32 := by
  decide

theorem words_lt : ∀ n < 64, (round (n / 16)).words.getD (n % 16) 0 < 16 := by decide

theorem constant_eq {n : Nat} (h : n < 64) : constant (n + 1) = sines.getD n 0 := by
  rw [constant, ← Sines.toNat_sines h, UInt32.ofNat_toNat]

-- The registers stand in a circle.
theorem register_next (n : Nat) : -Fin.ofNat 4 (n + 1) = -Fin.ofNat 4 n + 3 := by
  have hsucc : Fin.ofNat 4 (n + 1) = Fin.ofNat 4 n + 1 := by
    apply Fin.ext
    simp [Fin.val_add]
  rw [hsucc]
  generalize Fin.ofNat 4 n = a
  revert a
  decide

theorem circle : ∀ a : Fin 4, a + 3 + 1 = a ∧ a + 3 + 2 = a + 1 ∧ a + 3 + 3 = a + 2 ∧
    a + 1 ≠ a ∧ a + 2 ≠ a ∧ a + 3 ≠ a := by decide

variable {words : Array UInt32} {x : Nat → UInt32} (hwords : ∀ k < 16, words.getD k 0 = x k)
include hwords

-- An operation leaves three registers as they are, and puts the sum behind the one that is next.
theorem operate_turned {n : Nat} (hn : n < 64) {s : State} {r : Registers} (h : Turned n s r) :
    Turned (n + 1) (step words s n) (operate x r n) := by
  obtain ⟨hshift, hpos, hlt⟩ := shifts_eq n hn
  obtain ⟨hb, hc, hd, hone, htwo, hthree⟩ := circle (-Fin.ofNat 4 n)
  have hsum : r (-Fin.ofNat 4 n) +
        (round (n / 16)).mix (r (-Fin.ofNat 4 n + 1)) (r (-Fin.ofNat 4 n + 2)) (r (-Fin.ofNat 4 n + 3)) +
        x ((round (n / 16)).words.getD (n % 16) 0) + constant (n + 1) =
      s.a + (mix s n).1 + sines.getD n 0 + words.getD (mix s n).2 0 := by
    rw [mix_eq s hn, hwords _ (words_lt n hn), constant_eq hn, h.a, h.b, h.c, h.d]
    dsimp only
    ac_rfl
  have hoperate : operate x r n =
      Function.update r (-Fin.ofNat 4 n) (step words s n).b := by
    rw [operate, hsum, ← rotateLeft_eq _ hpos hlt, ← hshift, ← h.b]
    rfl
  constructor
  · rw [hoperate, register_next, Function.update_of_ne hthree]
    exact h.d
  · rw [hoperate, register_next, hb, Function.update_self]
  · rw [hoperate, register_next, hc, Function.update_of_ne hone]
    exact h.b
  · rw [hoperate, register_next, hd, Function.update_of_ne htwo]
    exact h.c

theorem operations_turned {n : Nat} (hn : n ≤ 64) (s : State) :
    Turned n ((List.range n).foldl (step words) s)
      ((List.range n).foldl (operate x) (registers s)) := by
  induction n with
  | zero => exact ⟨rfl, rfl, rfl, rfl⟩
  | succ n ih =>
    rw [List.range_succ, List.foldl_append, List.foldl_append]
    exact operate_turned hwords (by omega) (ih (by omega))

end Blocks

section Process

theorem registers_compress (s : State) (bytes : Bytes) {i : Nat} (hi : 64 * (i + 1) ≤ bytes.length) :
    registers (compress s ((bytes.drop (64 * i)).take 64)) =
      takeBlock (fun k => word (bits bytes) (16 * i + k)) (registers s) := by
  have hwords : ∀ k < 16, (littleWords ((bytes.drop (64 * i)).take 64)).toArray.getD k 0 =
      word (bits bytes) (16 * i + k) := by
    intro k hk
    rw [Array.getD_eq_getD_getElem?, List.getElem?_toArray, ← List.getD_eq_getElem?_getD]
    exact word_block bytes hk hi
  have h := operations_turned hwords (Nat.le_refl 64) s
  funext a
  match a with
  | 0 => exact (UInt32.add_comm _ _).trans (congrArg (· + s.a) h.a)
  | 1 => exact (UInt32.add_comm _ _).trans (congrArg (· + s.b) h.b)
  | 2 => exact (UInt32.add_comm _ _).trans (congrArg (· + s.c) h.c)
  | 3 => exact (UInt32.add_comm _ _).trans (congrArg (· + s.d) h.d)

theorem registers_blocks (bytes : Bytes) {count : Nat} (h : 64 * count ≤ bytes.length) :
    registers ((blocks count bytes).foldl compress initial) =
      (List.range count).foldl
        (fun r i => takeBlock (fun k => word (bits bytes) (16 * i + k)) r) start := by
  rw [blocks_eq, List.foldl_map]
  induction count with
  | zero => rfl
  | succ count ih =>
    rw [List.range_succ, List.foldl_append, List.foldl_append, ← ih (by omega)]
    exact registers_compress _ bytes h

theorem process_bits (bytes : Bytes) :
    process (bits bytes) =
      registers ((blocks (bytes.length / 64) bytes).foldl compress initial) := by
  have hcount : (bits bytes).length / 512 = bytes.length / 64 := by
    rw [length_bits]
    omega
  rw [process, hcount, registers_blocks bytes (by omega)]

theorem littleEndian_eq (width n : Nat) :
    littleEndian width n = (List.range width).map fun j => UInt8.ofNat (n / 256 ^ j) := by
  induction width generalizing n with
  | zero => rfl
  | succ width ih =>
    have hlow : UInt8.ofNat (n % 256) = UInt8.ofNat (n / 256 ^ 0) := by
      rw [pow_zero, Nat.div_one]
      exact UInt8.ofNat_mod_size
    have hhigh : ∀ j, n / 256 / 256 ^ j = n / 256 ^ (j + 1) := by
      intro j
      rw [Nat.div_div_eq_div_mul, pow_succ']
    rw [littleEndian, ih, hlow, List.range_succ_eq_map, List.map_cons, List.map_map]
    simp only [hhigh, Function.comp_def, Nat.succ_eq_add_one]

theorem output_registers (s : State) : output (registers s) = s.bytes := by
  simp only [State.bytes, littleEndian_eq]
  rfl

-- Every message has one digest, and that is the one of its blocks.
theorem digests_iff {message bytes : Bytes} : Digests message bytes ↔ bytes = digest message := by
  have hdigest : ∀ zeros < 512, ((bits message).length + 1 + zeros) % 512 = 448 →
      output (process (padded (bits message) zeros)) = digest message := by
    intro zeros hzeros haligned
    rw [padded_bits message hzeros haligned, process_bits, output_registers, digest]
  constructor
  · rintro ⟨zeros, hzeros, haligned, rfl⟩
    exact hdigest zeros hzeros haligned
  · rintro rfl
    have hlength := length_bits message
    have hzeros : (959 - (bits message).length % 512) % 512 < 512 := Nat.mod_lt _ (by decide)
    have haligned :
        ((bits message).length + 1 + (959 - (bits message).length % 512) % 512) % 512 = 448 := by
      omega
    exact ⟨_, hzeros, haligned, (hdigest _ hzeros haligned).symm⟩

end Process

end BlobStorage.Digest.Md5.Standard

namespace BlobStorage.Checksum

-- However reading cuts the content of a file into pieces, what is added up of them is the checksum of
-- the whole, and nothing else is its digest.
theorem ofPieces_digests (pieces : List Bytes) :
    ofPieces pieces = compute pieces.flatten ∧ ofFile pieces.flatten = compute pieces.flatten ∧
      ∀ bytes, Digest.Md5.Standard.Digests pieces.flatten bytes ↔ (ofPieces pieces).bytes = bytes := by
  refine ⟨ofPieces_eq pieces, ofFile_eq _, fun bytes => ?_⟩
  rw [Digest.Md5.Standard.digests_iff, ofPieces_eq, compute]
  exact eq_comm

end BlobStorage.Checksum
