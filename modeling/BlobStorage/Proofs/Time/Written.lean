import BlobStorage.Proofs.Number.Rounding
import BlobStorage.Proofs.Text.Split
import BlobStorage.Time.Written

-- Which texts are lengths of time, and how long they are. Nothing else is read.
namespace BlobStorage.Span.Written

open Text (isDigit digitsValue)

-- Every unit with its nanoseconds.
def units : List (String × Nat) :=
  [("ns", 1), ("us", 1000), ("µs", 1000), ("ms", 1000000), ("s", 1000000000), ("m", 60000000000),
    ("h", 3600000000000)]

-- A run of digits and points, with a digit at least and a point at most.
structure IsNumber (cs : List Char) : Prop where
  numeric : ∀ c ∈ cs, isDigit c = true ∨ c = '.'
  digit : ∃ c ∈ cs, isDigit c = true
  point : cs.count '.' ≤ 1

structure Pair where
  number : List Char
  unit : String
  nanos : Nat
  isNumber : IsNumber number
  isUnit : (unit, nanos) ∈ units

def Pair.text (pair : Pair) : List Char := pair.number ++ pair.unit.toList

def written (pairs : List Pair) : List Char := pairs.flatMap Pair.text

def whole (cs : List Char) : List Char := cs.takeWhile (· != '.')

def decimals (cs : List Char) : List Char := (cs.dropWhile (· != '.')).drop 1

-- What the digits in front of the point and behind it are together.
def value (cs : List Char) : ℚ :=
  digitsValue (whole cs) + digitsValue (decimals cs) / 10 ^ (decimals cs).length

-- From left to right, each number is rounded when it is read, when its unit is taken so many times,
-- and when the product is added.
inductive AddsUp : Binary64 → List Pair → Binary64 → Prop
  | nil (sum : Binary64) : AddsUp sum [] sum
  | cons {pair : Pair} {pairs : List Pair} {sum number product next last : Binary64}
      (hnumber : Binary64.Rounds (value pair.number * Binary64.one) number)
      (hproduct : Binary64.Times pair.nanos number product)
      (hsum : Binary64.Adds sum product next) (hmore : AddsUp next pairs last) :
      AddsUp sum (pair :: pairs) last

section Numbers

variable {cs front rest : List Char}

theorem isNumeric_iff {c : Char} : isNumeric c = true ↔ isDigit c = true ∨ c = '.' := by
  rw [isNumeric, Bool.or_eq_true, beq_iff_eq]

theorem ne_point_of_isDigit {c : Char} (h : isDigit c = true) : c ≠ '.' := by
  rintro rfl
  exact absurd h (by decide)

theorem IsNumber.isNumeric (h : IsNumber cs) : ∀ c ∈ cs, isNumeric c = true :=
  fun c hc => isNumeric_iff.mpr (h.numeric c hc)

theorem IsNumber.ne_nil (h : IsNumber cs) : cs ≠ [] := by
  obtain ⟨c, hc, -⟩ := h.digit
  exact List.ne_nil_of_mem hc

-- Only digits, or digits in front of the first point.
theorem numeric_cases (h : ∀ c ∈ cs, isNumeric c = true) :
    (∀ c ∈ cs, isDigit c = true) ∨
      ∃ front rest, cs = front ++ '.' :: rest ∧ (∀ c ∈ front, isDigit c = true) ∧
        ∀ c ∈ rest, isNumeric c = true := by
  by_cases hpoint : '.' ∈ cs
  · obtain ⟨front, rest, rfl, hfront⟩ := List.eq_append_cons_of_mem hpoint
    refine .inr ⟨front, rest, rfl, fun c hc => ?_, fun c hc => h c (by simp [hc])⟩
    have hnumeric := isNumeric_iff.mp (h c (List.mem_append_left _ hc))
    exact hnumeric.resolve_right (ne_of_mem_of_not_mem hc hfront)
  · refine .inl fun c hc => ?_
    exact (isNumeric_iff.mp (h c hc)).resolve_right (ne_of_mem_of_not_mem hc hpoint)

-- The digits up to a boundary end where a point would.
theorem digits_boundary (hfront : ∀ c ∈ front, isDigit c = true)
    (hrest : rest = [] ∨ ∃ behind, rest = '.' :: behind) :
    (front ++ rest).takeWhile isDigit = front ∧ (front ++ rest).dropWhile isDigit = rest ∧
      whole (front ++ rest) = front ∧ decimals (front ++ rest) = rest.drop 1 := by
  have hend : ∀ c ∈ rest.head?, isDigit c = false ∧ (c != '.') = false := by
    rcases hrest with rfl | ⟨behind, rfl⟩
    · exact fun c hc => nomatch hc
    · intro c hc
      obtain rfl : '.' = c := Option.some.inj hc
      decide
  have hother : ∀ c ∈ front, (c != '.') = true :=
    fun c hc => bne_iff_ne.mpr (ne_point_of_isDigit (hfront c hc))
  refine ⟨Text.takeWhile_boundary hfront fun c hc => (hend c hc).1,
    Text.dropWhile_boundary hfront fun c hc => (hend c hc).1,
    Text.takeWhile_boundary hother fun c hc => (hend c hc).2, ?_⟩
  rw [decimals, Text.dropWhile_boundary hother fun c hc => (hend c hc).2]

theorem digitsValue_append_digits (xs ys : List Char) :
    digitsValue (xs ++ ys) = digitsValue xs * 10 ^ ys.length + digitsValue ys := by
  induction ys using List.reverseRecOn with
  | nil => simp [digitsValue]
  | append_singleton ys c ih =>
    rw [← List.append_assoc, Text.digitsValue_append, Text.digitsValue_append, ih,
      List.length_append, List.length_singleton, Nat.pow_succ]
    ring

theorem value_eq (cs : List Char) :
    value cs = digitsValue (whole cs ++ decimals cs) / 10 ^ (decimals cs).length := by
  rw [value, digitsValue_append_digits]
  push_cast
  field_simp

theorem count_point_of_digits (h : ∀ c ∈ cs, isDigit c = true) : cs.count '.' = 0 :=
  List.count_eq_zero.mpr fun hmem => ne_point_of_isDigit (h '.' hmem) rfl

-- What is a number shows on its two sides of the first point.
theorem isNumber_iff (h : ∀ c ∈ cs, isNumeric c = true) :
    IsNumber cs ↔ whole cs ++ decimals cs ≠ [] ∧ ∀ c ∈ decimals cs, isDigit c = true := by
  rcases numeric_cases h with hdigits | ⟨front, rest, rfl, hfront, hrest⟩
  · obtain ⟨-, -, hwhole, hdecimals⟩ := digits_boundary hdigits (.inl rfl)
    rw [List.append_nil] at hwhole hdecimals
    rw [hwhole, hdecimals, List.drop_nil, List.append_nil]
    constructor
    · exact fun hnumber => ⟨hnumber.ne_nil, fun c hc => absurd hc List.not_mem_nil⟩
    · rintro ⟨hne, -⟩
      obtain ⟨c, hc⟩ := List.exists_mem_of_ne_nil cs hne
      exact ⟨fun c hc => .inl (hdigits c hc), ⟨c, hc, hdigits c hc⟩,
        (count_point_of_digits hdigits).trans_le (Nat.zero_le 1)⟩
  · obtain ⟨-, -, hwhole, hdecimals⟩ := digits_boundary hfront (.inr ⟨rest, rfl⟩)
    have hcount : (front ++ '.' :: rest).count '.' = rest.count '.' + 1 := by
      rw [List.count_append, List.count_cons_self, count_point_of_digits hfront, Nat.zero_add]
    rw [hwhole, hdecimals, List.drop_one, List.tail_cons]
    constructor
    · rintro ⟨-, ⟨c, hc, hdigit⟩, hpoint⟩
      have hnone : '.' ∉ rest := List.count_eq_zero.mp (by omega)
      refine ⟨List.ne_nil_of_mem (a := c) ?_, fun c hc => ?_⟩
      · rw [List.mem_append, List.mem_cons] at hc
        exact List.mem_append.mpr (hc.imp_right (·.resolve_left (ne_point_of_isDigit hdigit)))
      · exact (isNumeric_iff.mp (hrest c hc)).resolve_right (ne_of_mem_of_not_mem hc hnone)
    · rintro ⟨hne, hdigits⟩
      obtain ⟨c, hc⟩ := List.exists_mem_of_ne_nil _ hne
      refine ⟨fun c hc => isNumeric_iff.mp (h c hc), ⟨c, ?_, ?_⟩, ?_⟩
      · rw [List.mem_append] at hc ⊢
        exact hc.imp_right (List.mem_cons_of_mem _)
      · exact (List.mem_append.mp hc).elim (hfront c) (hdigits c)
      · rw [hcount, count_point_of_digits hdigits]

theorem number?_eq (h : ∀ c ∈ cs, isNumeric c = true) :
    number? cs =
      if whole cs ++ decimals cs ≠ [] ∧ (decimals cs).all isDigit = true then
        some (Binary64.ofDecimal (digitsValue (whole cs ++ decimals cs)) (decimals cs).length)
      else none := by
  have hsides : cs.takeWhile isDigit = whole cs ∧ (cs.dropWhile isDigit).drop 1 = decimals cs := by
    rcases numeric_cases h with hdigits | ⟨front, rest, rfl, hfront, -⟩
    · obtain ⟨htake, hdrop, hwhole, hdecimals⟩ := digits_boundary hdigits (.inl rfl)
      rw [List.append_nil] at htake hdrop hwhole hdecimals
      exact ⟨htake.trans hwhole.symm, by rw [hdrop, hdecimals]⟩
    · obtain ⟨htake, hdrop, hwhole, hdecimals⟩ := digits_boundary hfront (.inr ⟨rest, rfl⟩)
      exact ⟨htake.trans hwhole.symm, by rw [hdrop, hdecimals]⟩
  have hcondition : (whole cs).length + (decimals cs).length = 0 ∨
      (!(decimals cs).all isDigit) = true ↔
      ¬ (whole cs ++ decimals cs ≠ [] ∧ (decimals cs).all isDigit = true) := by
    rw [← List.length_append, List.length_eq_zero_iff, Bool.not_eq_true', Bool.eq_false_iff, Ne,
      not_and_or, not_not]
  simp only [number?, hsides.1, hsides.2, hcondition, ite_not]

-- A text is read as a number if it is one, and then as the number that it rounds to.
theorem number?_eq_some_iff {x : Binary64} (h : ∀ c ∈ cs, isNumeric c = true) :
    number? cs = some x ↔ IsNumber cs ∧ Binary64.Rounds (value cs * Binary64.one) x := by
  have hround := Binary64.ofDecimal_rounds (digitsValue (whole cs ++ decimals cs))
    (decimals cs).length
  rw [← value_eq] at hround
  rw [number?_eq h, isNumber_iff h, Option.ite_none_right_eq_some, Option.some.injEq,
    List.all_eq_true]
  refine and_congr_right fun _ => ⟨?_, fun hx => hround.unique hx⟩
  rintro rfl
  exact hround

end Numbers

section Units

variable {cs : List Char} {unit : String} {nanos : Nat}

theorem unit?_of_mem (h : (unit, nanos) ∈ units) : unit? unit.toList = some nanos := by
  have hall : ∀ entry ∈ units, unit? entry.1.toList = some entry.2 := by decide
  exact hall _ h

-- The units that are read are those of the table.
theorem exists_unit (h : unit? cs = some nanos) :
    ∃ unit, cs = unit.toList ∧ (unit, nanos) ∈ units := by
  have hentry : ∀ {name : String} {factor : Nat}, cs = name.toList → some factor = some nanos →
      (name, factor) ∈ units → ∃ unit, cs = unit.toList ∧ (unit, nanos) ∈ units := by
    rintro name factor hname hfactor hmem
    obtain rfl := Option.some.inj hfactor
    exact ⟨name, hname, hmem⟩
  rw [unit?] at h
  split_ifs at h with hns hmicro hms hs hm hh
  · exact hentry hns h (by decide)
  · rcases hmicro with hus | hus
    · exact hentry hus h (by decide)
    · exact hentry hus h (by decide)
  · exact hentry hms h (by decide)
  · exact hentry hs h (by decide)
  · exact hentry hm h (by decide)
  · exact hentry hh h (by decide)

-- No unit has a character of a number, and the last one is one of three letters.
theorem unit_letters (h : (unit, nanos) ∈ units) :
    (∀ c ∈ unit.toList, isNumeric c = false ∧ c ∈ ['n', 'u', 'µ', 'm', 's', 'h']) ∧
      unit.toList.getLast? ∈ [some 's', some 'm', some 'h'] := by
  have hletters : ∀ entry ∈ units, ∀ c ∈ entry.1.toList,
      isNumeric c = false ∧ c ∈ ['n', 'u', 'µ', 'm', 's', 'h'] := by
    simp [units, isNumeric, isDigit]
  have hlast : ∀ entry ∈ units, entry.1.toList.getLast? ∈ [some 's', some 'm', some 'h'] := by decide
  exact ⟨hletters _ h, hlast _ h⟩

theorem unit_ne_nil (h : (unit, nanos) ∈ units) : unit.toList ≠ [] := by
  have hall : ∀ entry ∈ units, entry.1.toList ≠ [] := by decide
  exact hall _ h

end Units

theorem factor_lt {unit : String} {nanos : Nat} (h : (unit, nanos) ∈ units) : nanos < 2 ^ 53 := by
  have hall : ∀ entry ∈ units, entry.2 < 2 ^ 53 := by decide
  exact hall _ h

section Steps

variable {sum number last : Binary64} {cs : List Char} {pair : Pair} {pairs : List Pair} {nanos : Nat}

-- One round of the sum: a number, its unit, and what is left.
theorem total_step (hne : cs ≠ []) (hnumber : number? (cs.takeWhile isNumeric) = some number)
    (hunit : unit? ((cs.dropWhile isNumeric).takeWhile (!isNumeric ·)) = some nanos) :
    total sum cs = total (sum.add (number.mul (Binary64.ofNat nanos)))
      ((cs.dropWhile isNumeric).dropWhile (!isNumeric ·)) := by
  rw [total, if_neg hne]
  split
  · rename_i number' nanos' hnumber' hunit'
    rw [hnumber] at hnumber'
    rw [hunit] at hunit'
    rw [Option.some.inj hnumber', Option.some.inj hunit']
  · rename_i hnone
    exact (hnone number nanos hnumber hunit).elim

theorem Pair.head_text (pair : Pair) (rest : List Char) :
    ∃ c, (pair.text ++ rest).head? = some c ∧ isNumeric c = true := by
  obtain ⟨c, more, hcons⟩ := List.exists_cons_of_ne_nil pair.isNumber.ne_nil
  refine ⟨c, by rw [Pair.text, hcons]; rfl, pair.isNumber.isNumeric c (by rw [hcons]; simp)⟩

theorem Pair.text_ne_nil (pair : Pair) (rest : List Char) : pair.text ++ rest ≠ [] := by
  obtain ⟨c, hhead, -⟩ := pair.head_text rest
  exact fun hnil => nomatch hnil ▸ hhead

theorem written_cons (pair : Pair) (pairs : List Pair) :
    written (pair :: pairs) = pair.text ++ written pairs := List.flatMap_cons

theorem head_written (pairs : List Pair) : ∀ c ∈ (written pairs).head?, isNumeric c = true := by
  cases pairs with
  | nil => exact fun c hc => nomatch hc
  | cons pair pairs =>
    obtain ⟨c, hhead, hc⟩ := pair.head_text (written pairs)
    rw [written_cons, hhead]
    intro c' hc'
    rwa [← Option.some.inj hc']

-- A number goes up to its unit, and a unit up to the next number.
theorem Pair.parts (pair : Pair) {rest : List Char} (hrest : ∀ c ∈ rest.head?, isNumeric c = true) :
    (pair.text ++ rest).takeWhile isNumeric = pair.number ∧
      ((pair.text ++ rest).dropWhile isNumeric).takeWhile (!isNumeric ·) = pair.unit.toList ∧
      ((pair.text ++ rest).dropWhile isNumeric).dropWhile (!isNumeric ·) = rest := by
  have hletters := (unit_letters pair.isUnit).1
  have hunit : ∀ c ∈ pair.unit.toList, (!isNumeric c) = true :=
    fun c hc => by rw [(hletters c hc).1]; rfl
  have hbehind : ∀ c ∈ rest.head?, (!isNumeric c) = false := fun c hc => by rw [hrest c hc]; rfl
  have hboundary : ∀ c ∈ (pair.unit.toList ++ rest).head?, isNumeric c = false := by
    obtain ⟨c, more, hcons⟩ := List.exists_cons_of_ne_nil (unit_ne_nil pair.isUnit)
    rw [hcons] at hletters ⊢
    intro c' hc'
    obtain rfl : c = c' := Option.some.inj hc'
    exact (hletters c List.mem_cons_self).1
  rw [Pair.text, List.append_assoc, Text.takeWhile_boundary pair.isNumber.isNumeric hboundary,
    Text.dropWhile_boundary pair.isNumber.isNumeric hboundary, Text.takeWhile_boundary hunit hbehind,
    Text.dropWhile_boundary hunit hbehind]
  exact ⟨rfl, rfl, rfl⟩

-- What is written as pairs is summed up to what they add up to.
theorem total_written : total sum (written pairs) = some last ↔ AddsUp sum pairs last := by
  induction pairs generalizing sum with
  | nil =>
    have htotal : total sum (written []) = some sum := by rw [total]; rfl
    rw [htotal, Option.some.injEq]
    constructor
    · rintro rfl
      exact .nil sum
    · rintro ⟨⟩
      rfl
  | cons pair pairs ih =>
    obtain ⟨htake, hunit, hrest⟩ := pair.parts (head_written pairs)
    obtain ⟨number, hnumber⟩ : ∃ number, number? pair.number = some number :=
      ⟨_, (number?_eq_some_iff pair.isNumber.isNumeric).mpr
        ⟨pair.isNumber, value_eq pair.number ▸ Binary64.ofDecimal_rounds _ _⟩⟩
    have hround := ((number?_eq_some_iff pair.isNumber.isNumeric).mp hnumber).2
    rw [written_cons, total_step (pair.text_ne_nil _) (htake.symm ▸ hnumber)
      (hunit.symm ▸ unit?_of_mem pair.isUnit), hrest, ih]
    constructor
    · exact fun hmore => .cons hround ((Binary64.times_iff (factor_lt pair.isUnit)).mpr rfl)
        (Binary64.adds_iff.mpr rfl) hmore
    · intro h
      cases h with
      | cons hnumber' hproduct hsum hmore =>
        rw [Binary64.times_iff (factor_lt pair.isUnit)] at hproduct
        rw [Binary64.adds_iff] at hsum
        rwa [hsum, hproduct, hnumber'.unique hround] at hmore

-- What is summed up is written as pairs.
theorem exists_pairs (h : total sum cs = some last) : ∃ pairs, cs = written pairs := by
  induction sum, cs using total.induct with
  | case1 sum => exact ⟨[], rfl⟩
  | case2 sum cs hne number nanos hunit hnumber ih =>
    rw [total_step hne hnumber hunit] at h
    obtain ⟨pairs, hpairs⟩ := ih h
    have hnumeric : ∀ c ∈ cs.takeWhile isNumeric, isNumeric c = true :=
      fun c hc => List.mem_takeWhile_imp hc
    obtain ⟨unit, htext, hmem⟩ := exists_unit hunit
    refine ⟨⟨_, unit, nanos, ((number?_eq_some_iff hnumeric).mp hnumber).1, hmem⟩ :: pairs, ?_⟩
    rw [written_cons, Pair.text, ← hpairs, ← htext, List.append_assoc,
      List.takeWhile_append_dropWhile, List.takeWhile_append_dropWhile]
  | case3 sum cs hne hnone =>
    rw [total, if_neg hne] at h
    split at h
    · rename_i number nanos hnumber hunit
      exact (hnone number nanos hnumber hunit).elim
    · exact nomatch h

-- A unit has one length.
theorem Pair.ext_unit {pair other : Pair} (hnumber : pair.number = other.number)
    (hunit : pair.unit = other.unit) : pair = other := by
  have hnanos : pair.nanos = other.nanos := by
    have hread := unit?_of_mem pair.isUnit
    rw [hunit, unit?_of_mem other.isUnit] at hread
    exact (Option.some.inj hread).symm
  cases pair
  cases other
  cases hnumber
  cases hunit
  cases hnanos
  rfl

-- A text is written as pairs in one way only.
theorem written_inj {others : List Pair} (h : written pairs = written others) : pairs = others := by
  induction pairs generalizing others with
  | nil =>
    cases others with
    | nil => rfl
    | cons other others => exact absurd h.symm (other.text_ne_nil (written others))
  | cons pair pairs ih =>
    cases others with
    | nil => exact absurd h (pair.text_ne_nil (written pairs))
    | cons other others =>
      rw [written_cons, written_cons] at h
      obtain ⟨hnumber, hunit, hrest⟩ := pair.parts (head_written pairs)
      obtain ⟨hnumber', hunit', hrest'⟩ := other.parts (head_written others)
      rw [h] at hnumber hunit hrest
      have hpair := Pair.ext_unit (hnumber.symm.trans hnumber')
        (String.toList_inj.mp (hunit.symm.trans hunit'))
      rw [hpair, ih (hrest.symm.trans hrest')]

end Steps

section Letters

variable {pairs : List Pair}

theorem written_letters {c : Char} (h : c ∈ written pairs) :
    isDigit c = true ∨ c ∈ ['.', 'n', 'u', 'µ', 'm', 's', 'h'] := by
  obtain ⟨pair, -, hc⟩ := List.mem_flatMap.mp h
  rcases List.mem_append.mp hc with hnumber | hunit
  · exact (pair.isNumber.numeric c hnumber).imp_right (List.mem_cons.mpr <| .inl ·)
  · exact .inr (List.mem_cons_of_mem _ ((unit_letters pair.isUnit).1 c hunit).2)

theorem written_last (hne : pairs ≠ []) :
    (written pairs).getLast? ∈ [some 's', some 'm', some 'h'] := by
  have hunit := unit_ne_nil (pairs.getLast hne).isUnit
  rw [← List.dropLast_append_getLast hne, written, List.flatMap_append, List.flatMap_singleton,
    Pair.text, ← List.append_assoc, List.getLast?_append_of_ne_nil _ hunit]
  exact (unit_letters (pairs.getLast hne).isUnit).2

end Letters

theorem nanos?_eq_some_iff {sum : Binary64} {nanos : Nat} :
    nanos? sum = some nanos ↔
      ∃ units, sum = .finite units ∧ units ≤ 2 ^ 64 * Binary64.one ∧
        nanos = min (Binary64.nearest units) (2 ^ 64 - 1) := by
  have hword : Text.word64 = 2 ^ 64 := by decide
  cases sum with
  | infinite =>
    constructor
    · exact fun h => nomatch h
    · rintro ⟨units, h, -⟩
      exact nomatch h
  | finite units =>
    rw [nanos?, bound, hword, Option.ite_none_right_eq_some, Option.some.injEq]
    constructor
    · rintro ⟨hle, rfl⟩
      exact ⟨units, rfl, hle, rfl⟩
    · rintro ⟨_, hunits, hle, rfl⟩
      obtain rfl := Binary64.finite.inj hunits
      exact ⟨hle, rfl⟩

end Written

open Written

theorem parse_ok_iff_total {s : String} {span : Span} :
    parse s = .ok span ↔
      s ≠ "" ∧ ∃ sum, total (.finite 0) s.toList = some sum ∧ nanos? sum = some span.nanos := by
  by_cases hempty : s = ""
  · rw [parse, if_pos hempty]
    exact iff_of_false (fun h => nomatch h) fun h => h.1 hempty
  · rw [parse, if_neg hempty, ← Option.bind_eq_some_iff]
    cases (total (.finite 0) s.toList).bind nanos? with
    | none => exact iff_of_false (fun h => nomatch h) fun h => nomatch h.2
    | some nanos =>
      constructor
      · rintro ⟨⟩
        exact ⟨hempty, rfl⟩
      · rintro ⟨-, ⟨⟩⟩
        rfl

-- A text is a length of time if it is written as pairs, and then it is as long as they add up to.
theorem parse_ok_iff {s : String} {span : Span} :
    parse s = .ok span ↔
      ∃ pairs, pairs ≠ [] ∧ s.toList = written pairs ∧
        ∃ units, AddsUp (.finite 0) pairs (.finite units) ∧ units ≤ 2 ^ 64 * Binary64.one ∧
          span.nanos = min (Binary64.nearest units) (2 ^ 64 - 1) := by
  rw [parse_ok_iff_total]
  constructor
  · rintro ⟨hne, sum, htotal, hnanos⟩
    obtain ⟨pairs, hpairs⟩ := exists_pairs htotal
    obtain ⟨units, rfl, hunits⟩ := nanos?_eq_some_iff.mp hnanos
    rw [hpairs, total_written] at htotal
    refine ⟨pairs, ?_, hpairs, units, htotal, hunits⟩
    rintro rfl
    exact hne (String.toList_eq_nil_iff.mp hpairs)
  · rintro ⟨pairs, hne, hpairs, units, hadds, hunits⟩
    refine ⟨?_, .finite units, by rw [hpairs, total_written]; exact hadds,
      nanos?_eq_some_iff.mpr ⟨units, rfl, hunits⟩⟩
    rintro rfl
    obtain ⟨pair, more, rfl⟩ := List.exists_cons_of_ne_nil hne
    exact pair.text_ne_nil (written more) hpairs.symm

-- Which texts are taken, which characters they have, and what is said of the others. A text has one
-- reading at most.
structure Judged (s : String) : Prop where
  accepted : (∃ span, parse s = .ok span) ↔
    ∃ pairs, pairs ≠ [] ∧ s.toList = written pairs ∧
      ∃ units, AddsUp (.finite 0) pairs (.finite units) ∧ units ≤ 2 ^ 64 * Binary64.one
  reading : ∀ pairs others, s.toList = written pairs → s.toList = written others → pairs = others
  letters : (∃ span, parse s = .ok span) →
    ∀ c ∈ s.toList, Text.isDigit c = true ∨ c ∈ ['.', 'n', 'u', 'µ', 'm', 's', 'h']
  last : (∃ span, parse s = .ok span) → s.toList.getLast? ∈ [some 's', some 'm', some 'h']
  refused : (¬ ∃ span, parse s = .ok span) →
    parse s = .error
      ("Expiration should be in the format of a duration i.e. 1h, 60m, 3600s. Got: " ++ s)

theorem judged (s : String) : Judged s := by
  have haccepted : (∃ span, parse s = .ok span) ↔
      ∃ pairs, pairs ≠ [] ∧ s.toList = written pairs ∧
        ∃ units, AddsUp (.finite 0) pairs (.finite units) ∧ units ≤ 2 ^ 64 * Binary64.one := by
    constructor
    · rintro ⟨span, h⟩
      obtain ⟨pairs, hne, hpairs, units, hadds, hle, -⟩ := parse_ok_iff.mp h
      exact ⟨pairs, hne, hpairs, units, hadds, hle⟩
    · rintro ⟨pairs, hne, hpairs, units, hadds, hle⟩
      exact ⟨⟨_⟩, parse_ok_iff.mpr ⟨pairs, hne, hpairs, units, hadds, hle, rfl⟩⟩
  refine ⟨haccepted, fun _ _ hpairs hothers => written_inj (hpairs.symm.trans hothers), ?_, ?_, ?_⟩
  · intro h c hc
    obtain ⟨pairs, -, hpairs, -⟩ := haccepted.mp h
    exact written_letters (hpairs ▸ hc)
  · intro h
    obtain ⟨pairs, hne, hpairs, -⟩ := haccepted.mp h
    rw [hpairs]
    exact written_last hne
  · intro h
    rw [parse] at h ⊢
    split at h
    · exact absurd ⟨_, rfl⟩ h
    · rfl

end BlobStorage.Span
