import BlobStorage.Number.Binary64
import Mathlib.Algebra.Order.Field.Basic
import Mathlib.Algebra.Order.Field.Rat
import Mathlib.Algebra.Order.AbsoluteValue.Basic
import Mathlib.Tactic.Linarith
import Mathlib.Tactic.Ring
import Mathlib.Tactic.FieldSimp

-- Rounding gives the number that is nearest, and between two that are as near the one with an even
-- significand. Numbers are counts of the smallest positive one.
namespace BlobStorage.Binary64

-- The counts that 53 bits and an exponent write, whether they are too large or not.
def Representable (units : Nat) : Prop := ∃ m e, m < 2 ^ 53 ∧ units = m * 2 ^ e

-- The leading bits of a count, as many as there are in a number.
def significand (units : Nat) : Nat := units / 2 ^ excess units

structure Nearest (q : ℚ) (units : Nat) : Prop where
  representable : Representable units
  nearest : ∀ other, Representable other → other ≠ units →
    |q - units| < |q - other| ∨
      |q - units| = |q - other| ∧ significand units % 2 = 0 ∧ significand other % 2 = 1

-- The number that a count with a fraction rounds to. It is infinite if it would have to be too large.
inductive Rounds (q : ℚ) : Binary64 → Prop
  | finite {units : Nat} (h : Nearest q units) (hlimit : units < limit) : Rounds q (.finite units)
  | infinite {units : Nat} (h : Nearest q units) (hlimit : limit ≤ units) : Rounds q .infinite

theorem Nearest.unique {q : ℚ} {u v : Nat} (hu : Nearest q u) (hv : Nearest q v) : u = v := by
  by_contra hne
  have huv := hu.nearest v hv.representable (Ne.symm hne)
  have hvu := hv.nearest u hu.representable hne
  rcases huv with hlt | ⟨heq, heven, hodd⟩
  · rcases hvu with hlt' | ⟨heq', -, -⟩
    · exact absurd hlt (not_lt.mpr hlt'.le)
    · exact absurd heq' hlt.ne'
  · rcases hvu with hlt' | ⟨-, heven', hodd'⟩
    · exact absurd heq hlt'.ne'
    · omega

theorem Rounds.unique {q : ℚ} {x y : Binary64} (hx : Rounds q x) (hy : Rounds q y) : x = y := by
  cases hx with
  | finite hu hlimit =>
    cases hy with
    | finite hv _ => rw [hu.unique hv]
    | infinite hv hlimit' =>
      obtain rfl := hu.unique hv
      exact absurd hlimit (Nat.not_lt_of_le hlimit')
  | infinite hu hlimit =>
    cases hy with
    | finite hv hlimit' =>
      obtain rfl := hu.unique hv
      exact absurd hlimit' (Nat.not_lt_of_le hlimit)
    | infinite hv _ => rfl

-- The distance of a fraction to a count, in parts of the denominator.
def gap (n d units : Nat) : Nat := ((n : Int) - units * d).natAbs

theorem abs_sub_eq_gap (n : Nat) {d : Nat} (hd : 0 < d) (units : Nat) :
    |(n : ℚ) / d - units| = gap n d units / d := by
  have hpos : (0 : ℚ) < d := Nat.cast_pos.mpr hd
  have hfraction : (n : ℚ) / d - units = ((n : Int) - units * d : Int) / d := by
    push_cast
    field_simp
  rw [hfraction, abs_div, abs_of_pos hpos, gap, Nat.cast_natAbs, Int.cast_abs]

theorem abs_sub_lt {n d : Nat} (hd : 0 < d) {u v : Nat} (h : gap n d u < gap n d v) :
    |(n : ℚ) / d - u| < |(n : ℚ) / d - v| := by
  rw [abs_sub_eq_gap n hd, abs_sub_eq_gap n hd]
  exact div_lt_div_of_pos_right (Nat.cast_lt.mpr h) (Nat.cast_pos.mpr hd)

theorem gap_of_le {n d units : Nat} (h : units * d ≤ n) : gap n d units = n - units * d := by
  have hcast : (units : Int) * d = (units * d : Nat) := (Nat.cast_mul units d).symm
  rw [gap, hcast]
  omega

theorem gap_of_ge {n d units : Nat} (h : n ≤ units * d) : gap n d units = units * d - n := by
  have hcast : (units : Int) * d = (units * d : Nat) := (Nat.cast_mul units d).symm
  rw [gap, hcast]
  omega

-- Of the whole numbers the quotient is between two, and rounds to the nearer one of them.
theorem roundQuotient_cases (n : Nat) {d : Nat} (hd : 0 < d) :
    (roundQuotient n d = n / d ∧
        (2 * gap n d (n / d) < d ∨ 2 * gap n d (n / d) = d ∧ n / d % 2 = 0)) ∨
      (roundQuotient n d = n / d + 1 ∧
        (2 * gap n d (n / d + 1) < d ∨ 2 * gap n d (n / d + 1) = d ∧ (n / d + 1) % 2 = 0)) := by
  have hsplit : n / d * d + n % d = n := by rw [Nat.mul_comm]; exact Nat.div_add_mod n d
  have hrest : n % d < d := Nat.mod_lt n hd
  have hnext : (n / d + 1) * d = n / d * d + d := Nat.succ_mul _ _
  have hbelow : gap n d (n / d) = n % d := by rw [gap_of_le (by omega)]; omega
  have habove : gap n d (n / d + 1) = d - n % d := by rw [gap_of_ge (by omega)]; omega
  rw [hbelow, habove, roundQuotient]
  by_cases hlt : 2 * (n % d) < d
  · rw [if_pos hlt]
    exact .inl ⟨rfl, .inl hlt⟩
  · by_cases hgt : d < 2 * (n % d)
    · rw [if_neg hlt, if_pos hgt]
      exact .inr ⟨rfl, .inl (by omega)⟩
    · rw [if_neg hlt, if_neg hgt]
      by_cases heven : n / d % 2 = 0
      · exact .inl ⟨by omega, .inr ⟨by omega, heven⟩⟩
      · exact .inr ⟨by omega, .inr ⟨by omega, by omega⟩⟩

theorem le_gap_add_gap (n d k j : Nat) : j * d ≤ gap n d k + gap n d (k + j) := by
  have hcast : ((k + j : Nat) : Int) * d = (k * d : Nat) + (j * d : Nat) := by push_cast; ring
  have hcast' : (k : Int) * d = (k * d : Nat) := (Nat.cast_mul k d).symm
  rw [gap, gap, hcast, hcast']
  omega

theorem le_gap_add_gap_of_ne (n d : Nat) {k m : Nat} (h : k ≠ m) : d ≤ gap n d k + gap n d m := by
  rcases Nat.lt_or_gt_of_ne h with hlt | hgt
  · obtain ⟨j, rfl⟩ : ∃ j, m = k + j := ⟨m - k, by omega⟩
    have hwidth : 1 * d ≤ j * d := Nat.mul_le_mul_right d (by omega)
    have hsum := le_gap_add_gap n d k j
    omega
  · obtain ⟨j, rfl⟩ : ∃ j, k = m + j := ⟨k - m, by omega⟩
    have hwidth : 1 * d ≤ j * d := Nat.mul_le_mul_right d (by omega)
    have hsum := le_gap_add_gap n d m j
    omega

-- Only the two whole numbers around the quotient are no farther than half-way.
theorem eq_of_gap_le (n : Nat) {d : Nat} (hd : 0 < d) {k : Nat} (h : 2 * gap n d k ≤ d) :
    k = n / d ∨ k = n / d + 1 := by
  have hbelow : n / d * d ≤ n := Nat.div_mul_le_self n d
  have habove : n < (n / d + 1) * d := Nat.lt_mul_of_div_lt (Nat.lt_succ_self _) hd
  rcases Nat.lt_trichotomy k (n / d) with hlt | heq | hgt
  · have hfar : (k + 1) * d ≤ n / d * d := Nat.mul_le_mul_right d hlt
    rw [Nat.succ_mul] at hfar
    rw [gap_of_le (by omega)] at h
    omega
  · exact .inl heq
  · by_contra hne
    have hfar : (n / d + 1 + 1) * d ≤ k * d := Nat.mul_le_mul_right d (by omega)
    rw [Nat.succ_mul] at hfar
    rw [gap_of_ge (by omega)] at h
    omega

-- Another whole number is farther away, unless the quotient lies half-way between the two.
theorem roundQuotient_nearest (n : Nat) {d : Nat} (hd : 0 < d) {k : Nat}
    (hk : k ≠ roundQuotient n d) :
    gap n d (roundQuotient n d) < gap n d k ∨
      gap n d (roundQuotient n d) = gap n d k ∧ roundQuotient n d % 2 = 0 ∧ k % 2 = 1 ∧
        (k = n / d ∨ k = n / d + 1) := by
  have hsum := le_gap_add_gap_of_ne n d hk
  have hnear := eq_of_gap_le n hd (k := k)
  rcases roundQuotient_cases n hd with ⟨heq, hhalf⟩ | ⟨heq, hhalf⟩
  · rw [heq] at hk hsum ⊢
    omega
  · rw [heq] at hk hsum ⊢
    omega

section Steps

variable {shift : Nat}

theorem representable_of_le {k : Nat} (h : k ≤ 2 ^ 53) : Representable (k * 2 ^ shift) := by
  by_cases hlt : k < 2 ^ 53
  · exact ⟨k, shift, hlt, rfl⟩
  · obtain rfl : k = 2 ^ 53 := by omega
    exact ⟨2 ^ 52, shift + 1, by decide, by rw [Nat.pow_succ]; ring⟩

-- A representable count is a multiple of a step, or so small that smaller steps lead to it.
theorem Representable.cases {units : Nat} (h : Representable units) (shift : Nat) :
    (∃ k, units = k * 2 ^ shift) ∨ 0 < shift ∧ units < 2 ^ 52 * 2 ^ shift := by
  obtain ⟨m, e, hm, rfl⟩ := h
  by_cases he : shift ≤ e
  · refine .inl ⟨m * 2 ^ (e - shift), ?_⟩
    rw [Nat.mul_assoc, ← Nat.pow_add, Nat.sub_add_cancel he]
  · refine .inr ⟨by omega, ?_⟩
    calc m * 2 ^ e < 2 ^ 53 * 2 ^ e := Nat.mul_lt_mul_of_pos_right hm (Nat.two_pow_pos e)
      _ = 2 ^ 52 * 2 ^ (e + 1) := by rw [Nat.pow_succ]; ring
      _ ≤ 2 ^ 52 * 2 ^ shift := Nat.mul_le_mul_left _ (Nat.pow_le_pow_right (by decide) (by omega))

theorem excess_eq {units : Nat} (hlt : units < 2 ^ (53 + shift))
    (hfull : shift = 0 ∨ 2 ^ (52 + shift) ≤ units) : excess units = shift := by
  rw [excess]
  by_cases hzero : units = 0
  · have hpos := Nat.two_pow_pos (52 + shift)
    rw [hzero, Nat.log2_zero]
    omega
  · have hhigh : units.log2 < 53 + shift := (Nat.log2_lt hzero).mpr hlt
    have hlow : 2 ^ (52 + shift) ≤ units → 52 + shift ≤ units.log2 := (Nat.le_log2 hzero).mpr
    omega

theorem excess_bounds (units : Nat) :
    units < 2 ^ (53 + excess units) ∧ (excess units = 0 ∨ 2 ^ (52 + excess units) ≤ units) := by
  have hlog : units < 2 ^ (units.log2 + 1) := Nat.lt_log2_self
  have hexcess : excess units = units.log2 - 52 := rfl
  constructor
  · exact hlog.trans_le (Nat.pow_le_pow_right (by decide) (by omega))
  · by_cases hsmall : units.log2 ≤ 52
    · exact .inl (by omega)
    · have hzero : units ≠ 0 := by
        rintro rfl
        exact hsmall (Nat.le_of_lt (by decide))
      have hpower : 52 + excess units = units.log2 := by omega
      exact .inr (hpower ▸ Nat.log2_self_le hzero)

-- How many steps a count makes is its significand, but for the carry into one more bit.
theorem significand_mul {k : Nat} (hk : k ≤ 2 ^ 53) (hfull : shift = 0 ∨ 2 ^ 52 ≤ k) :
    significand (k * 2 ^ shift) % 2 = k % 2 := by
  have hpos := Nat.two_pow_pos shift
  by_cases hlt : k < 2 ^ 53
  · have hexcess : excess (k * 2 ^ shift) = shift := by
      apply excess_eq
      · rw [Nat.pow_add]
        exact Nat.mul_lt_mul_of_pos_right hlt hpos
      · refine hfull.imp_right fun hle => ?_
        rw [Nat.pow_add]
        exact Nat.mul_le_mul_right _ hle
    rw [significand, hexcess, Nat.mul_div_cancel _ hpos]
  · obtain rfl : k = 2 ^ 53 := by omega
    have hcarry : 2 ^ 53 * 2 ^ shift = 2 ^ 52 * 2 ^ (shift + 1) := by rw [Nat.pow_succ]; ring
    have hexcess : excess (2 ^ 53 * 2 ^ shift) = shift + 1 := by
      apply excess_eq
      · rw [← Nat.pow_add]
        exact Nat.pow_lt_pow_right (by decide) (by omega)
      · rw [← Nat.pow_add]
        exact .inr (Nat.pow_le_pow_right (by decide) (by omega))
    rw [significand, hexcess, hcarry, Nat.mul_div_cancel _ (Nat.two_pow_pos _)]
    rfl

theorem gap_mul_step (n d k : Nat) : gap n d (k * 2 ^ shift) = gap n (d * 2 ^ shift) k := by
  rw [gap, gap]
  congr 1
  push_cast
  ring

-- The steps that leave 53 bits: so many of them make up the quotient.
theorem steps_bounds (n d : Nat) (hshift : excess (n / d) = shift) :
    n / (d * 2 ^ shift) < 2 ^ 53 ∧ (shift = 0 ∨ 2 ^ 52 ≤ n / (d * 2 ^ shift)) := by
  obtain ⟨hlt, hfull⟩ := excess_bounds (n / d)
  rw [hshift] at hlt hfull
  have hpos := Nat.two_pow_pos shift
  rw [← Nat.div_div_eq_div_mul]
  constructor
  · rw [Nat.div_lt_iff_lt_mul hpos, ← Nat.pow_add]
    exact hlt
  · refine hfull.imp_right fun hle => ?_
    rw [Nat.le_div_iff_mul_le hpos, ← Nat.pow_add]
    exact hle

-- A count that takes smaller steps lies below the step that the quotient is in, which is nearer.
theorem gap_lt_of_small {n d other : Nat} (hd : 0 < d) (hfull : 2 ^ 52 ≤ n / (d * 2 ^ shift))
    (hsmall : other < 2 ^ 52 * 2 ^ shift) :
    gap n (d * 2 ^ shift) (roundQuotient n (d * 2 ^ shift)) < gap n d other := by
  have hstep : 0 < d * 2 ^ shift := Nat.mul_pos hd (Nat.two_pow_pos shift)
  have hbelow : n / (d * 2 ^ shift) * (d * 2 ^ shift) ≤ n := Nat.div_mul_le_self n _
  have hstart : other * d < n / (d * 2 ^ shift) * (d * 2 ^ shift) := by
    calc other * d < 2 ^ 52 * 2 ^ shift * d := Nat.mul_lt_mul_of_pos_right hsmall hd
      _ = 2 ^ 52 * (d * 2 ^ shift) := by ring
      _ ≤ n / (d * 2 ^ shift) * (d * 2 ^ shift) := Nat.mul_le_mul_right _ hfull
  have hfar : gap n (d * 2 ^ shift) (n / (d * 2 ^ shift)) < gap n d other := by
    rw [gap_of_le hbelow, gap_of_le (by omega)]
    omega
  have hnear : gap n (d * 2 ^ shift) (roundQuotient n (d * 2 ^ shift)) ≤
      gap n (d * 2 ^ shift) (n / (d * 2 ^ shift)) := by
    by_cases hsame : n / (d * 2 ^ shift) = roundQuotient n (d * 2 ^ shift)
    · rw [← hsame]
    · rcases roundQuotient_nearest n hstep hsame with hlt | ⟨heq, -⟩ <;> omega
  omega

end Steps

-- In steps that leave 53 bits, rounding to a whole number of steps is rounding to the nearest
-- representable count.
theorem round_nearest (n : Nat) {d : Nat} (hd : 0 < d) :
    Nearest ((n : ℚ) / d)
      (roundQuotient n (d <<< excess (n / d)) <<< excess (n / d)) := by
  generalize hshift : excess (n / d) = shift
  rw [Nat.shiftLeft_eq, Nat.shiftLeft_eq]
  obtain ⟨hbits, hleading⟩ := steps_bounds n d hshift
  have hstep : 0 < d * 2 ^ shift := Nat.mul_pos hd (Nat.two_pow_pos shift)
  have hrounded : n / (d * 2 ^ shift) ≤ roundQuotient n (d * 2 ^ shift) ∧
      roundQuotient n (d * 2 ^ shift) ≤ n / (d * 2 ^ shift) + 1 := by
    rcases roundQuotient_cases n hstep with ⟨heq, -⟩ | ⟨heq, -⟩ <;> omega
  refine ⟨representable_of_le (by omega), fun other hother hne => ?_⟩
  rcases hother.cases shift with ⟨k, rfl⟩ | ⟨hshifted, hsmall⟩
  · have hk : k ≠ roundQuotient n (d * 2 ^ shift) := fun heq => hne (heq ▸ rfl)
    rcases roundQuotient_nearest n hstep hk with hnear | ⟨htie, heven, hodd, hneighbour⟩
    · rw [← gap_mul_step, ← gap_mul_step] at hnear
      exact .inl (abs_sub_lt hd hnear)
    · rw [← gap_mul_step, ← gap_mul_step] at htie
      refine .inr ⟨?_, ?_, ?_⟩
      · rw [abs_sub_eq_gap n hd, abs_sub_eq_gap n hd, htie]
      · rw [significand_mul (by omega) (by omega), heven]
      · rw [significand_mul (by omega) (by omega), hodd]
  · have hnear := gap_lt_of_small hd (hleading.resolve_left hshifted.ne') hsmall
    rw [← gap_mul_step] at hnear
    exact .inl (abs_sub_lt hd hnear)

-- The number that `n / d` units are rounded to.
theorem round_rounds (n : Nat) {d : Nat} (hd : 0 < d) : Rounds ((n : ℚ) / d) (round n d) := by
  have hnearest := round_nearest n hd
  rw [round]
  by_cases hlimit : roundQuotient n (d <<< excess (n / d)) <<< excess (n / d) < limit
  · rw [if_pos hlimit]
    exact .finite hnearest hlimit
  · rw [if_neg hlimit]
    exact .infinite hnearest (Nat.le_of_not_lt hlimit)

theorem Nearest.self {units : Nat} (h : Representable units) : Nearest (units : ℚ) units := by
  refine ⟨h, fun other _ hne => .inl ?_⟩
  rw [sub_self, abs_zero, abs_pos, sub_ne_zero]
  exact fun heq => hne (Nat.cast_injective heq).symm

-- Small whole numbers are numbers.
theorem ofNat_eq {n : Nat} (h : n < 2 ^ 53) : ofNat n = .finite (n * one) := by
  have hshift : ∀ e, n * 1 <<< e = n * 2 ^ e := fun e => by rw [Nat.one_shiftLeft]
  have hlt : ∀ e l, 53 + e ≤ l → n * 1 <<< e < 1 <<< l := by
    intro e l hle
    rw [Nat.one_shiftLeft, Nat.one_shiftLeft]
    calc n * 2 ^ e < 2 ^ 53 * 2 ^ e := Nat.mul_lt_mul_of_pos_right h (Nat.two_pow_pos e)
      _ = 2 ^ (53 + e) := (Nat.pow_add 2 53 e).symm
      _ ≤ 2 ^ l := Nat.pow_le_pow_right (by decide) hle
  have hrepresentable : Representable (n * one) := ⟨n, _, h, hshift 1074⟩
  have hlimit : n * one < limit := hlt 1074 2098 (by decide)
  have hround := round_rounds (n * one) Nat.one_pos
  rw [Nat.cast_one, div_one] at hround
  exact hround.unique (.finite (.self hrepresentable) hlimit)

-- What the sum of two numbers is: infinity stays, and others are added before they are rounded.
inductive Adds : Binary64 → Binary64 → Binary64 → Prop
  | finite {a b : Nat} {sum : Binary64} (h : Rounds (a + b) sum) : Adds (.finite a) (.finite b) sum
  | left (y : Binary64) : Adds .infinite y .infinite
  | right (x : Binary64) : Adds x .infinite .infinite

-- What a number is when it is taken so many times.
inductive Times (factor : Nat) : Binary64 → Binary64 → Prop
  | finite {units : Nat} {product : Binary64} (h : Rounds (units * factor) product) :
      Times factor (.finite units) product
  | infinite : Times factor .infinite .infinite

theorem adds_iff {x y sum : Binary64} : Adds x y sum ↔ sum = x.add y := by
  constructor
  · intro h
    cases h with
    | @finite a b sum h =>
      have hround := round_rounds (a + b) Nat.one_pos
      rw [Nat.cast_one, div_one, Nat.cast_add] at hround
      exact h.unique hround
    | left y => rfl
    | right x => cases x <;> rfl
  · rintro rfl
    cases x with
    | infinite => exact .left y
    | finite a =>
      cases y with
      | infinite => exact .right _
      | finite b =>
        have hround := round_rounds (a + b) Nat.one_pos
        rw [Nat.cast_one, div_one, Nat.cast_add] at hround
        exact .finite hround

theorem times_iff {factor : Nat} (h : factor < 2 ^ 53) {x product : Binary64} :
    Times factor x product ↔ product = x.mul (ofNat factor) := by
  have hone : 0 < one := by
    rw [one, Nat.one_shiftLeft]
    exact Nat.two_pow_pos 1074
  rw [ofNat_eq h]
  have hround : ∀ units : Nat,
      Rounds ((units : ℚ) * factor) (mul (.finite units) (.finite (factor * one))) := by
    intro units
    have hround := round_rounds (units * (factor * one)) hone
    have hcancel : ((units * (factor * one) : Nat) : ℚ) / one = units * factor := by
      have hne : (one : ℚ) ≠ 0 := Nat.cast_ne_zero.mpr hone.ne'
      rw [← Nat.mul_assoc, Nat.cast_mul, mul_div_cancel_right₀ _ hne, Nat.cast_mul]
    rwa [hcancel] at hround
  constructor
  · intro h
    cases h with
    | finite h => exact h.unique (hround _)
    | infinite => rfl
  · rintro rfl
    cases x with
    | finite units => exact .finite (hround units)
    | infinite => exact .infinite

-- A decimal is read as the number that it rounds to.
theorem ofDecimal_rounds (digits places : Nat) :
    Rounds (digits / 10 ^ places * one) (ofDecimal digits places) := by
  have hround := round_rounds (digits * one) (Nat.pow_pos (by decide : 0 < 10) (n := places))
  have hfraction : ((digits * one : Nat) : ℚ) / (10 ^ places : Nat) = digits / 10 ^ places * one := by
    rw [Nat.cast_mul, Nat.cast_pow, Nat.cast_ofNat]
    ring
  rwa [hfraction] at hround

section Errors

variable {q : ℚ} {units other shift : Nat}

theorem Nearest.abs_le (h : Nearest q units) (hother : Representable other) :
    |q - units| ≤ |q - other| := by
  by_cases hsame : other = units
  · rw [hsame]
  · rcases h.nearest other hother hsame with hlt | ⟨heq, -, -⟩
    · exact hlt.le
    · exact heq.le

-- Rounding down does not pass a representable count.
theorem Nearest.le_of_le (h : Nearest q units) (hother : Representable other) (hle : (other : ℚ) ≤ q) :
    other ≤ units := by
  by_contra hlt
  have hbelow : (units : ℚ) < other := Nat.cast_lt.mpr (Nat.lt_of_not_le hlt)
  have hnear := h.abs_le hother
  rw [abs_of_nonneg (by linarith), abs_of_nonneg (by linarith)] at hnear
  linarith

-- Not more than half a step is lost by rounding down: the next step is representable too.
theorem Nearest.le_add_half (h : Nearest q units) (hlt : units < 2 ^ 53 * 2 ^ shift) :
    q ≤ units + 2 ^ shift / 2 := by
  have hpos := Nat.two_pow_pos shift
  have hsteps : units / 2 ^ shift < 2 ^ 53 := (Nat.div_lt_iff_lt_mul hpos).mpr hlt
  have hnext : Representable ((units / 2 ^ shift + 1) * 2 ^ shift) := representable_of_le hsteps
  have habove : units < (units / 2 ^ shift + 1) * 2 ^ shift :=
    Nat.lt_mul_of_div_lt (Nat.lt_succ_self _) hpos
  have hwidth : (units / 2 ^ shift + 1) * 2 ^ shift ≤ units + 2 ^ shift := by
    rw [Nat.succ_mul]
    exact Nat.add_le_add_right (Nat.div_mul_le_self units _) _
  generalize (units / 2 ^ shift + 1) * 2 ^ shift = next at hnext habove hwidth
  have hnear := h.abs_le hnext
  have habove' : (units : ℚ) < next := Nat.cast_lt.mpr habove
  have hwidth' : (next : ℚ) ≤ units + 2 ^ shift := by exact_mod_cast hwidth
  by_contra hfar
  rw [not_le] at hfar
  have hshort : |q - next| < q - units := abs_lt.mpr ⟨by linarith, by linarith⟩
  exact absurd ((le_abs_self _).trans hnear) (not_le.mpr hshort)

-- That is a small part of the count itself, or half of the smallest count.
theorem Nearest.le_add_part (h : Nearest q units) : q ≤ units + (units / 2 ^ 53 + 1 / 2) := by
  obtain ⟨hlt, hfull⟩ := excess_bounds units
  rw [Nat.pow_add] at hlt hfull
  have hhalf := h.le_add_half hlt
  have hunits : (0 : ℚ) ≤ units := Nat.cast_nonneg units
  rcases hfull with hzero | hfull
  · rw [hzero, pow_zero] at hhalf
    linarith
  · have hfull' : (2 : ℚ) ^ 52 * 2 ^ excess units ≤ units := by exact_mod_cast hfull
    linarith

end Errors

end BlobStorage.Binary64
