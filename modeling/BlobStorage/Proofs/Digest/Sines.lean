import BlobStorage.Digest.Md5
import Mathlib.Analysis.Complex.Basic
import Mathlib.Analysis.Complex.Exponential
import Mathlib.Analysis.Complex.Trigonometric
import Mathlib.Tactic.NormNum.NatFactorial

-- The constants of the steps are what they are said to be: the first 32 binary places of sines. The
-- point at one radian on the unit circle is known well enough to turn it 64 times.
namespace BlobStorage.Digest.Md5.Sines

open Complex

-- Both parts of the point at one radian, cut at 48 binary places, and the powers of it.
def turned : Nat → Int × Int
  | 0 => (1, 0)
  | count + 1 =>
    let (x, y) := turned count
    (152081578960948 * x - 236853025851495 * y, 236853025851495 * x + 152081578960948 * y)

noncomputable def point : ℂ := ⟨152081578960948 / 2 ^ 48, 236853025851495 / 2 ^ 48⟩

theorem point_pow (count : Nat) :
    point ^ count = ⟨(turned count).1 / 2 ^ (48 * count), (turned count).2 / 2 ^ (48 * count)⟩ := by
  induction count with
  | zero => simp [turned, Complex.ext_iff]
  | succ count ih =>
    rw [pow_succ, ih, point, Nat.mul_succ, pow_add]
    apply Complex.ext <;> simp [turned] <;> ring

theorem norm_point_le : ‖point‖ ≤ 1 := by
  have hsquares : normSq point ≤ 1 := by
    rw [normSq_apply, point]
    norm_num
  rw [norm_def, Real.sqrt_le_one]
  exact hsquares

-- The series of the exponential, far enough.
theorem series_near : ‖∑ m ∈ Finset.range 18, I ^ m / (m.factorial : ℂ) - point‖ ≤ 3 / 2 ^ 48 := by
  refine (norm_le_abs_re_add_abs_im _).trans ?_
  simp [Finset.sum_range_succ, pow_succ, Nat.factorial, point]
  norm_num [abs_of_pos, abs_of_neg]

theorem exp_near : ‖exp I - point‖ ≤ 1 / 2 ^ 46 := by
  have hunit : ‖I‖ ≤ 1 := norm_I.le
  have hseries := exp_bound hunit (by decide : 0 < 18)
  have hrest : ‖I‖ ^ 18 * ((Nat.succ 18 : ℝ) * ((Nat.factorial 18 : ℝ) * (18 : ℕ))⁻¹) ≤ 1 / 2 ^ 48 := by
    rw [norm_I]
    norm_num [Nat.factorial]
  calc ‖exp I - point‖
      ≤ ‖exp I - ∑ m ∈ Finset.range 18, I ^ m / (m.factorial : ℂ)‖ +
          ‖∑ m ∈ Finset.range 18, I ^ m / (m.factorial : ℂ) - point‖ := norm_sub_le_norm_sub_add_norm_sub ..
    _ ≤ 1 / 2 ^ 48 + 3 / 2 ^ 48 := add_le_add (hseries.trans hrest) series_near
    _ = 1 / 2 ^ 46 := by norm_num

-- On the unit disk an error only adds up when powers are taken.
theorem norm_pow_sub_le {x y : ℂ} (hx : ‖x‖ ≤ 1) (hy : ‖y‖ ≤ 1) (count : Nat) :
    ‖x ^ count - y ^ count‖ ≤ count * ‖x - y‖ := by
  induction count with
  | zero => simp
  | succ count ih =>
    have hpow : ‖y ^ count‖ ≤ 1 := by
      rw [norm_pow]
      exact pow_le_one₀ (norm_nonneg y) hy
    have hsplit : x ^ (count + 1) - y ^ (count + 1) =
        (x ^ count - y ^ count) * x + y ^ count * (x - y) := by ring
    calc ‖x ^ (count + 1) - y ^ (count + 1)‖
        ≤ ‖x ^ count - y ^ count‖ * ‖x‖ + ‖y ^ count‖ * ‖x - y‖ := by
          rw [hsplit, ← norm_mul, ← norm_mul]
          exact norm_add_le _ _
      _ ≤ count * ‖x - y‖ * 1 + 1 * ‖x - y‖ := by gcongr
      _ = (count + 1 : ℕ) * ‖x - y‖ := by push_cast; ring

-- The sine of a whole number of radians, up to an error.
theorem sine_near (count : Nat) :
    |(|Real.sin count| - |((turned count).2 : ℝ)| / 2 ^ (48 * count))| ≤ count / 2 ^ 46 := by
  have hunit : ‖exp I‖ = 1 := by
    have hreal := norm_exp_ofReal_mul_I 1
    rwa [ofReal_one, one_mul] at hreal
  have hpowers : ‖exp I ^ count - point ^ count‖ ≤ count / 2 ^ 46 := by
    refine (norm_pow_sub_le hunit.le norm_point_le count).trans ?_
    rw [div_eq_mul_one_div]
    gcongr
    exact exp_near
  have him : (exp I ^ count - point ^ count).im =
      Real.sin count - (turned count).2 / 2 ^ (48 * count) := by
    rw [sub_im, point_pow, ← exp_nat_mul, ← ofReal_natCast, exp_ofReal_mul_I_im]
  have habs : |((turned count).2 : ℝ)| / 2 ^ (48 * count) =
      |((turned count).2 : ℝ) / 2 ^ (48 * count)| := by
    rw [abs_div, abs_of_pos (by positivity : (0 : ℝ) < 2 ^ (48 * count))]
  rw [habs]
  refine (abs_abs_sub_abs_le _ _).trans ?_
  rw [← him]
  exact (abs_im_le_norm _).trans hpowers

-- Every constant lies so far from the next whole number that the error does not matter.
theorem sines_apart : ∀ i < 64,
    (sines.getD i 0).toNat * 2 ^ (48 * (i + 1)) * 2 ^ 14 + (i + 1) * 2 ^ (48 * (i + 1)) ≤
        2 ^ 46 * (turned (i + 1)).2.natAbs ∧
      2 ^ 46 * (turned (i + 1)).2.natAbs + (i + 1) * 2 ^ (48 * (i + 1)) <
        ((sines.getD i 0).toNat + 1) * 2 ^ (48 * (i + 1)) * 2 ^ 14 := by
  decide +kernel

-- The first 32 binary places, read as a whole number.
theorem toNat_sines {i : Nat} (h : i < 64) :
    (sines.getD i 0).toNat = ⌊4294967296 * |Real.sin (i + 1 : Nat)|⌋₊ := by
  obtain ⟨hbelow, habove⟩ := sines_apart i h
  have hnear := abs_le.mp (sine_near (i + 1))
  have hscale : (0 : ℝ) < 2 ^ (48 * (i + 1)) := by positivity
  generalize hy : |((turned (i + 1)).2 : ℝ)| / 2 ^ (48 * (i + 1)) = y at hnear
  have hnat : ((turned (i + 1)).2.natAbs : ℝ) = y * 2 ^ (48 * (i + 1)) := by
    rw [← hy, div_mul_cancel₀ _ hscale.ne', Nat.cast_natAbs, Int.cast_abs]
  generalize (sines.getD i 0).toNat = constant at hbelow habove ⊢
  have hlow : (constant : ℝ) * 2 ^ 14 + (i + 1 : Nat) ≤ 2 ^ 46 * y := by
    have hcast : ((constant : ℝ) * 2 ^ 14 + (i + 1 : Nat)) * 2 ^ (48 * (i + 1)) ≤
        2 ^ 46 * y * 2 ^ (48 * (i + 1)) := by
      rw [mul_assoc (2 ^ 46), ← hnat]
      calc _ = ((constant * 2 ^ (48 * (i + 1)) * 2 ^ 14 + (i + 1) * 2 ^ (48 * (i + 1)) : ℕ) : ℝ) := by
              push_cast; ring
        _ ≤ ((2 ^ 46 * (turned (i + 1)).2.natAbs : ℕ) : ℝ) := by exact_mod_cast hbelow
        _ = _ := by push_cast; ring
    exact le_of_mul_le_mul_right hcast hscale
  have hhigh : 2 ^ 46 * y + (i + 1 : Nat) < ((constant : ℝ) + 1) * 2 ^ 14 := by
    have hcast : (2 ^ 46 * y + (i + 1 : Nat)) * 2 ^ (48 * (i + 1)) <
        (((constant : ℝ) + 1) * 2 ^ 14) * 2 ^ (48 * (i + 1)) := by
      calc _ = ((2 ^ 46 * (turned (i + 1)).2.natAbs + (i + 1) * 2 ^ (48 * (i + 1)) : ℕ) : ℝ) := by
              push_cast [hnat]; ring
        _ < (((constant + 1) * 2 ^ (48 * (i + 1)) * 2 ^ 14 : ℕ) : ℝ) := by exact_mod_cast habove
        _ = _ := by push_cast; ring
    exact lt_of_mul_lt_mul_right hcast hscale.le
  refine ((Nat.floor_eq_iff (by positivity)).mpr ⟨?_, ?_⟩).symm
  · linarith
  · linarith

end BlobStorage.Digest.Md5.Sines
