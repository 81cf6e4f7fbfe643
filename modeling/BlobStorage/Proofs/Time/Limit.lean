import BlobStorage.Proofs.Time.Written

-- Lengths of time that do not fit 64 bits. The sum is compared with 2^64 after it was rounded, so that
-- some that are too long by a little are cut to what fits; how little grows with the number of pairs.
namespace BlobStorage.Span.Written

open Binary64 (one Representable)

-- How many nanoseconds the pairs are together, when nothing is rounded.
def exact (pairs : List Pair) : ℚ := (pairs.map fun pair => value pair.number * pair.nanos).sum

-- Numbers up to 2^64 nanoseconds are no farther apart than 2^12.
theorem exists_step : ∃ shift, 2 ^ shift = 2 ^ 12 * one ∧ 2 ^ 64 * one < 2 ^ 53 * 2 ^ shift ∧
    2 ^ 53 ≤ one := by
  obtain ⟨e, he, hone⟩ : ∃ e, 53 ≤ e ∧ one = 1 <<< e := ⟨1074, by decide, rfl⟩
  rw [Nat.one_shiftLeft] at hone
  have hstep : 2 ^ (12 + e) = 2 ^ 12 * one := by rw [hone, Nat.pow_add]
  refine ⟨12 + e, hstep, ?_, hone ▸ Nat.pow_le_pow_right (by decide) he⟩
  have hpos : 0 < one := hone ▸ Nat.two_pow_pos e
  omega

theorem one_pos : (0 : ℚ) < one := by
  obtain ⟨-, -, -, hone⟩ := exists_step
  exact_mod_cast (Nat.two_pow_pos 53).trans_le hone

section Sums

variable {start units : Nat} {sum last : Binary64} {pair : Pair} {pairs : List Pair}

theorem AddsUp.infinite_of_eq (h : AddsUp sum pairs last) (hsum : sum = .infinite) :
    last = .infinite := by
  induction h with
  | nil sum => exact hsum
  | cons hnumber hproduct hadds hmore ih =>
    subst hsum
    cases hadds
    · exact ih rfl
    · exact ih rfl

-- The counts that a pair is rounded to on its way into a sum that stays finite.
theorem AddsUp.cons_finite (h : AddsUp (.finite start) (pair :: pairs) (.finite units)) :
    ∃ number product next,
      Binary64.Nearest (value pair.number * one) number ∧
      Binary64.Nearest (number * pair.nanos) product ∧ Binary64.Nearest (start + product) next ∧
      AddsUp (.finite next) pairs (.finite units) := by
  cases h with
  | @cons _ _ _ number product next _ hnumber hproduct hsum hmore =>
    cases hsum with
    | right x => exact nomatch (hmore.infinite_of_eq rfl)
    | @finite a b sum hsum =>
      cases hsum with
      | infinite _ _ => exact nomatch (hmore.infinite_of_eq rfl)
      | finite hsum _ =>
        cases hproduct with
        | finite hproduct =>
          cases hproduct with
          | finite hproduct _ =>
            cases hnumber with
            | finite hnumber _ => exact ⟨_, _, _, hnumber, hproduct, hsum, hmore⟩

-- Each of the three roundings of a pair loses some two microseconds at most, as long as the sum is
-- within the limit.
theorem pair_error {number product next : Nat} (hstart : Representable start)
    (hnumber : Binary64.Nearest (value pair.number * one) number)
    (hproduct : Binary64.Nearest (number * pair.nanos) product)
    (hnext : Binary64.Nearest (start + product) next) (hlimit : next ≤ 2 ^ 64 * one) :
    start ≤ next ∧ start + value pair.number * pair.nanos * one ≤ next + 2 ^ 13 * one := by
  obtain ⟨shift, hstep, hbound, hone⟩ := exists_step
  have hhalf : (2 : ℚ) ^ shift / 2 = 2 ^ 11 * one := by
    have hcast : (2 : ℚ) ^ shift = 2 ^ 12 * one := by exact_mod_cast hstep
    rw [hcast]
    ring
  have hfirst : start ≤ next := hnext.le_of_le hstart (le_add_of_nonneg_right (Nat.cast_nonneg _))
  have hsecond : product ≤ next :=
    hnext.le_of_le hproduct.representable (le_add_of_nonneg_left (Nat.cast_nonneg _))
  have hsumError := hnext.le_add_half (hlimit.trans_lt hbound)
  have hproductError := hproduct.le_add_half ((hsecond.trans hlimit).trans_lt hbound)
  rw [hhalf] at hsumError hproductError
  refine ⟨hfirst, ?_⟩
  have hfactor : (pair.nanos : ℚ) ≤ 2 ^ 53 := by exact_mod_cast (factor_lt pair.isUnit).le
  have hnonneg : (0 : ℚ) ≤ pair.nanos := Nat.cast_nonneg _
  have hvalueError := mul_le_mul_of_nonneg_right hnumber.le_add_part hnonneg
  have hproductLimit : (product : ℚ) ≤ 2 ^ 64 * one := by exact_mod_cast hsecond.trans hlimit
  have hone' : (2 : ℚ) ^ 53 ≤ one := by exact_mod_cast hone
  have hcomm : value pair.number * one * pair.nanos = value pair.number * pair.nanos * one := by ring
  rw [hcomm] at hvalueError
  linarith

-- A sum within the limit falls short of what is written by that much for every pair at most.
theorem exact_le (hstart : Representable start) (h : AddsUp (.finite start) pairs (.finite units))
    (hlimit : units ≤ 2 ^ 64 * one) :
    start ≤ units ∧ start + exact pairs * one ≤ units + pairs.length * (2 ^ 13 * one) := by
  induction pairs generalizing start with
  | nil =>
    cases h
    simp [exact]
  | cons pair pairs ih =>
    obtain ⟨number, product, next, hnumber, hproduct, hnext, hmore⟩ := h.cons_finite
    obtain ⟨hrest, herror⟩ := ih hnext.representable hmore
    obtain ⟨hfirst, hpair⟩ := pair_error hstart hnumber hproduct hnext (hrest.trans hlimit)
    refine ⟨hfirst.trans hrest, ?_⟩
    have hexact : exact (pair :: pairs) = value pair.number * pair.nanos + exact pairs := by
      rw [exact, List.map_cons, List.sum_cons, ← exact]
    rw [hexact, List.length_cons]
    push_cast
    linarith

theorem exact_le_units (h : AddsUp (.finite 0) pairs (.finite units)) (hlimit : units ≤ 2 ^ 64 * one) :
    exact pairs ≤ units / one + pairs.length * 2 ^ 13 := by
  have hzero : Representable 0 := ⟨0, 0, by decide, rfl⟩
  have hle := (exact_le hzero h hlimit).2
  rw [← sub_le_iff_le_add, le_div_iff₀ one_pos]
  push_cast at hle
  linarith

end Sums

theorem le_nearest (units : Nat) : (units : ℚ) / one - 1 / 2 ≤ Binary64.nearest units := by
  have hpos : 0 < one := by exact_mod_cast one_pos
  have hlt : 2 * units + one < (Binary64.nearest units + 1) * (2 * one) :=
    Nat.lt_mul_of_div_lt (Nat.lt_succ_self _) (by omega)
  have hlt' : 2 * (units : ℚ) + one < (Binary64.nearest units + 1) * (2 * one) := by exact_mod_cast hlt
  rw [sub_le_iff_le_add, div_le_iff₀ one_pos]
  linarith

end Written

open Written
open Binary64 (one)

-- What becomes of a text whose length does not fit 64 bits: it is refused if the sum is beyond the
-- limit when it has been rounded, as it is if it is too long by more than its pairs can lose. Else it
-- is taken for a length just below the limit.
structure Overlong (s : String) (pairs : List Pair) : Prop where
  refused : (∃ text, parse s = .error text) ↔
    ∀ units, AddsUp (.finite 0) pairs (.finite units) → 2 ^ 64 * one < units
  far : 2 ^ 64 + pairs.length * 2 ^ 13 < exact pairs → ∃ text, parse s = .error text
  cut : ∀ span, parse s = .ok span →
    span.nanos < 2 ^ 64 ∧ 2 ^ 64 ≤ span.nanos + pairs.length * 2 ^ 13

theorem parse_written_ok_iff {s : String} {pairs : List Pair} (hs : s.toList = written pairs)
    (hne : pairs ≠ []) {span : Span} :
    parse s = .ok span ↔ ∃ units, AddsUp (.finite 0) pairs (.finite units) ∧
      units ≤ 2 ^ 64 * one ∧ span.nanos = min (Binary64.nearest units) (2 ^ 64 - 1) := by
  rw [parse_ok_iff]
  constructor
  · rintro ⟨others, -, hothers, hunits⟩
    rwa [written_inj (hs.symm.trans hothers)]
  · exact fun hunits => ⟨pairs, hne, hs, hunits⟩

theorem error_iff {s : String} : (∃ text, parse s = .error text) ↔ ∀ span, parse s ≠ .ok span := by
  cases parse s with
  | error text => exact iff_of_true ⟨text, rfl⟩ fun span => nofun
  | ok span => exact iff_of_false (fun ⟨_, h⟩ => nomatch h) fun h => h span rfl

-- Whatever is written is refused if its sum is beyond the limit, and only then.
theorem parse_error_iff {s : String} {pairs : List Pair} (hs : s.toList = written pairs)
    (hne : pairs ≠ []) :
    (∃ text, parse s = .error text) ↔
      ∀ units, AddsUp (.finite 0) pairs (.finite units) → 2 ^ 64 * one < units := by
  rw [error_iff]
  constructor
  · intro h units hadds
    by_contra hlimit
    exact h ⟨_⟩ ((parse_written_ok_iff hs hne).mpr ⟨units, hadds, Nat.le_of_not_lt hlimit, rfl⟩)
  · intro h span hspan
    obtain ⟨units, hadds, hlimit, -⟩ := (parse_written_ok_iff hs hne).mp hspan
    exact absurd (h units hadds) (Nat.not_lt_of_le hlimit)

theorem parse_overlong {s : String} {pairs : List Pair} (hs : s.toList = written pairs)
    (hexact : 2 ^ 64 ≤ exact pairs) : Overlong s pairs := by
  have hne : pairs ≠ [] := by
    rintro rfl
    exact absurd hexact (by simp [exact])
  have hrefused := parse_error_iff hs hne
  refine ⟨hrefused, fun hfar => hrefused.mpr fun units hadds => ?_, fun span hspan => ?_⟩
  · by_contra hlimit
    have hlimit' : (units : ℚ) ≤ 2 ^ 64 * one := by exact_mod_cast Nat.le_of_not_lt hlimit
    have hle := exact_le_units hadds (Nat.le_of_not_lt hlimit)
    rw [← div_le_iff₀ one_pos] at hlimit'
    linarith
  · obtain ⟨units, hadds, hlimit, hnanos⟩ := (parse_written_ok_iff hs hne).mp hspan
    have hpairs : 0 < pairs.length := List.length_pos_iff.mpr hne
    have hle := exact_le_units hadds hlimit
    have hround := le_nearest units
    have hclose : (2 : ℚ) ^ 64 < Binary64.nearest units + pairs.length * 2 ^ 13 + 1 := by linarith
    have hclose' : 2 ^ 64 < Binary64.nearest units + pairs.length * 2 ^ 13 + 1 := by
      exact_mod_cast hclose
    omega

section Samples

theorem isNumber_of_digits {cs : List Char} (hne : cs ≠ []) (hall : cs.all Text.isDigit = true) :
    IsNumber cs := by
  have h := List.all_eq_true.mp hall
  obtain ⟨c, hc⟩ := List.exists_mem_of_ne_nil cs hne
  exact ⟨fun c hc => .inl (h c hc), ⟨c, hc, h c hc⟩, (count_point_of_digits h).trans_le (Nat.zero_le 1)⟩

theorem value_of_digits {cs : List Char} (h : cs.all Text.isDigit = true) :
    value cs = Text.digitsValue cs := by
  obtain ⟨-, -, hwhole, hdecimals⟩ := digits_boundary (List.all_eq_true.mp h) (.inl rfl)
  rw [List.append_nil] at hwhole hdecimals
  simp [value, hwhole, hdecimals, Text.digitsValue]

-- Twice the limit in hours, and a nanosecond.
def farPairs : List Pair :=
  [⟨"10248192".toList, "h", 3600000000000, isNumber_of_digits (by decide) (by decide), by decide⟩,
    ⟨"1".toList, "ns", 1, isNumber_of_digits (by decide) (by decide), by decide⟩]

theorem exact_farPairs : exact farPairs = 36893491200000000001 := by
  have hhours : value "10248192".toList = 10248192 := by
    have hdigits : Text.digitsValue "10248192".toList = 10248192 := by decide
    rw [value_of_digits (by decide), hdigits, Nat.cast_ofNat]
  have hrest : value "1".toList = 1 := by
    have hdigits : Text.digitsValue "1".toList = 1 := by decide
    rw [value_of_digits (by decide), hdigits, Nat.cast_one]
  simp only [exact, farPairs, List.map_cons, List.map_nil, hhours, hrest]
  norm_num

theorem parse_overlong_far :
    ("10248192h1ns".toList = written farPairs ∧ 2 ^ 64 ≤ exact farPairs) ∧
      ∃ text, parse "10248192h1ns" = .error text := by
  have htext : "10248192h1ns".toList = written farPairs := by decide
  have hexact : (2 : ℚ) ^ 64 ≤ exact farPairs := by
    rw [exact_farPairs]
    norm_num
  refine ⟨⟨htext, hexact⟩, (parse_overlong htext hexact).far ?_⟩
  rw [exact_farPairs]
  norm_num [farPairs]

-- The limit itself.
def limitPair : Pair :=
  ⟨"18446744073709551616".toList, "ns", 1, isNumber_of_digits (by decide) (by decide), by decide⟩

theorem value_limitPair : value limitPair.number * limitPair.nanos = (2 ^ 64 : Nat) := by
  have hdigits : Text.digitsValue limitPair.number = 2 ^ 64 := by decide
  have hnanos : limitPair.nanos = 1 := rfl
  rw [value_of_digits (by decide), hdigits, hnanos, Nat.cast_one, mul_one]

-- The limit is a number, so that no step rounds.
theorem rounds_limit : Binary64.Rounds (2 ^ 64 * one : Nat) (.finite (2 ^ 64 * one)) := by
  obtain ⟨shift, hstep, -, -⟩ := exists_step
  have hrepresentable : Binary64.Representable (2 ^ 64 * one) :=
    ⟨2 ^ 52, shift, by decide, by rw [hstep]; ring⟩
  exact .finite (.self hrepresentable) (by decide +kernel)

theorem parse_at_limit :
    ("18446744073709551616ns".toList = written [limitPair] ∧ exact [limitPair] = 2 ^ 64) ∧
      parse "18446744073709551616ns" = .ok ⟨2 ^ 64 - 1⟩ := by
  have htext : "18446744073709551616ns".toList = written [limitPair] := by decide
  have hexact : exact [limitPair] = 2 ^ 64 := by
    rw [exact, List.map_singleton, List.sum_singleton, value_limitPair]
    norm_num
  have hnanos : limitPair.nanos = 1 := rfl
  have hvalue : value limitPair.number = (2 ^ 64 : Nat) := by
    rw [← value_limitPair, hnanos, Nat.cast_one, mul_one]
  have hadds : AddsUp (.finite 0) [limitPair] (.finite (2 ^ 64 * one)) := by
    have hnumber : Binary64.Rounds (value limitPair.number * one) (.finite (2 ^ 64 * one)) := by
      rw [hvalue, ← Nat.cast_mul]
      exact rounds_limit
    have hproduct : Binary64.Times limitPair.nanos (.finite (2 ^ 64 * one)) (.finite (2 ^ 64 * one)) := by
      refine .finite ?_
      rw [hnanos, Nat.cast_one, mul_one]
      exact rounds_limit
    have hsum : Binary64.Adds (.finite 0) (.finite (2 ^ 64 * one)) (.finite (2 ^ 64 * one)) := by
      refine .finite ?_
      rw [Nat.cast_zero, zero_add]
      exact rounds_limit
    exact .cons hnumber hproduct hsum (.nil _)
  refine ⟨⟨htext, hexact⟩, (parse_written_ok_iff htext (List.cons_ne_nil _ _)).mpr ?_⟩
  exact ⟨_, hadds, Nat.le_refl _, by decide +kernel⟩

end Samples

end BlobStorage.Span
