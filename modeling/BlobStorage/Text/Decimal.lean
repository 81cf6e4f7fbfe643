namespace BlobStorage.Text

def digitsValue (digits : List Char) : Nat :=
  digits.foldl (fun n c => n * 10 + (c.toNat - 48)) 0

def isDigit (c : Char) : Bool :=
  48 ≤ c.toNat && c.toNat ≤ 57

def withoutPlus : List Char → List Char
  | '+' :: rest => rest
  | cs => cs

-- Reads an unsigned number below `bound`: digits only, behind an optional plus sign.
def unsigned? (bound : Nat) (s : String) : Option Nat :=
  let digits := withoutPlus s.toList
  if digits ≠ [] ∧ digits.all isDigit ∧ digitsValue digits < bound then some (digitsValue digits)
  else none

def word64 : Nat := 0x10000000000000000

theorem isDigit_of_mem_toDigits {c : Char} {n : Nat} (h : c ∈ Nat.toDigits 10 n) :
    isDigit c = true := by
  have := Nat.isDigit_of_mem_toDigits (by decide) (by decide) h
  simp only [Char.isDigit, ge_iff_le, Bool.and_eq_true, decide_eq_true_eq, UInt32.le_iff_toNat_le]
    at this
  simp only [isDigit, Bool.and_eq_true, decide_eq_true_eq]
  exact this

theorem digitsValue_append (xs : List Char) (c : Char) :
    digitsValue (xs ++ [c]) = digitsValue xs * 10 + (c.toNat - 48) := by
  simp [digitsValue]

theorem digitsValue_toDigits (n : Nat) : digitsValue (Nat.toDigits 10 n) = n := by
  induction n using Nat.strongRecOn with
  | ind n ih =>
    rw [Nat.toDigits_eq_if (by decide)]
    split
    · rename_i h
      simp [digitsValue, Nat.toNat_digitChar_sub_48_of_lt_ten h]
    · rw [digitsValue_append, ih (n / 10) (by omega),
        Nat.toNat_digitChar_sub_48_of_lt_ten (Nat.mod_lt n (by decide))]
      omega

theorem withoutPlus_of_digits {cs : List Char} (h : cs.all isDigit = true) :
    withoutPlus cs = cs := by
  unfold withoutPlus
  split
  · rw [List.all_cons] at h
    exact absurd (Bool.and_eq_true_iff.mp h).1 (by decide)
  · rfl

theorem unsigned?_repr {bound n : Nat} (h : n < bound) : unsigned? bound (Nat.repr n) = some n := by
  have hdigits : (Nat.toDigits 10 n).all isDigit = true :=
    List.all_eq_true.mpr fun c hc => isDigit_of_mem_toDigits hc
  simp only [unsigned?, Nat.toList_repr, withoutPlus_of_digits hdigits, digitsValue_toDigits]
  rw [if_pos ⟨Nat.toDigits_ne_nil, hdigits, h⟩]

-- A number with at least `width` digits, zeros in front.
def padded (width n : Nat) : String :=
  String.ofList (List.replicate (width - (Nat.repr n).length) '0') ++ Nat.repr n

end BlobStorage.Text
