import BlobStorage.Proofs.Text.Split
import BlobStorage.Proofs.Text.Utf8
import BlobStorage.Url.Domain

-- The ASCII form of a name is its own ASCII form: nothing in it can be lowered or encoded again.
namespace BlobStorage

namespace Text

def isSmall (c : Char) : Bool := c.toNat < 128 && !(65 ≤ c.toNat && c.toNat ≤ 90)

theorem isSmall_ascii {c : Char} (h : isSmall c = true) : c.toNat < 128 := by
  simp only [isSmall, Bool.and_eq_true, decide_eq_true_eq] at h
  exact h.1

theorem smallLetter_small {c : Char} (h : isSmall c = true) : smallLetter c = c := by
  have hall : ∀ c : Char, c.toNat < 128 → isSmall c = true → smallLetter c = c :=
    forall_ascii (by decide +kernel)
  exact hall c (isSmall_ascii h) h

theorem lowerAfter_small {cs : List Char} (h : ∀ c ∈ cs, isSmall c = true) (before : List Char) :
    lowerAfter before cs = cs := by
  induction cs generalizing before with
  | nil => rfl
  | cons c cs ih =>
    have hc := h c List.mem_cons_self
    have hsigma : c ≠ 'Σ' := by
      rintro rfl
      exact absurd hc (by decide)
    have hdotted : c ≠ 'İ' := by
      rintro rfl
      exact absurd hc (by decide)
    rw [lowerAfter, if_neg hsigma, if_neg hdotted, smallLetter_small hc,
      ih (fun d hd => h d (List.mem_cons_of_mem _ hd)), List.singleton_append]

-- Small letters of other alphabets and of ours lie behind the capitals of ASCII.
theorem behind_capitals {run : CaseRun} (h : run ∈ caseRuns) :
    90 < (run.first : Int) + run.shift := by
  have hall : ∀ run ∈ caseRuns, 90 < (run.first : Int) + run.shift := by decide +kernel
  exact hall run h

theorem isSmall_smallLetter {c : Char} (h : (smallLetter c).toNat < 128) :
    isSmall (smallLetter c) = true := by
  unfold smallLetter at h ⊢
  split at h
  · rename_i run hrun
    have hbehind := behind_capitals (List.mem_of_find?_eq_some hrun)
    have hcovers := List.find?_some hrun
    simp only [CaseRun.covers, Bool.and_eq_true, decide_eq_true_eq] at hcovers
    simp only [isSmall, Bool.and_eq_true, Bool.not_eq_true', decide_eq_true_eq]
    refine ⟨h, ?_⟩
    rw [toNat_charOfNat]
    split
    · simp only [Bool.and_eq_false_imp, decide_eq_true_eq, decide_eq_false_iff_not]
      omega
    · rfl
  · rename_i hnone
    have hcapital : (⟨0x41, 0x5a, 1, 32⟩ : CaseRun) ∈ caseRuns := List.mem_cons_self
    have hcovers := List.find?_eq_none.mp hnone _ hcapital
    simp only [CaseRun.covers, Nat.mod_one, beq_self_eq_true, Bool.and_true, Bool.and_eq_true,
      decide_eq_true_eq] at hcovers
    simp only [isSmall, Bool.and_eq_true, Bool.not_eq_true', decide_eq_true_eq,
      Bool.and_eq_false_imp, decide_eq_false_iff_not]
    omega

theorem isSmall_of_mem_lowerAfter {before cs : List Char} {c : Char} (h : c ∈ lowerAfter before cs)
    (hc : c.toNat < 128) : isSmall c = true := by
  induction cs generalizing before with
  | nil => exact absurd h List.not_mem_nil
  | cons d cs ih =>
    rw [lowerAfter, List.mem_append] at h
    rcases h with h | h
    · split at h
      · rw [List.mem_singleton] at h
        subst h
        split at hc <;> exact absurd hc (by decide)
      · split at h
        · simp only [List.mem_cons, List.not_mem_nil, or_false] at h
          rcases h with rfl | rfl
          · decide
          · exact absurd hc (by decide)
        · rw [List.mem_singleton] at h
          subst h
          exact isSmall_smallLetter hc
    · exact ih h

theorem eq_of_smallLetter {c d : Char} (h : smallLetter c = d) (hd : 0 < d.toNat ∧ d.toNat ≤ 64) :
    c = d := by
  unfold smallLetter at h
  split at h
  · rename_i run hrun
    have hbehind := behind_capitals (List.mem_of_find?_eq_some hrun)
    have hcovers := List.find?_some hrun
    simp only [CaseRun.covers, Bool.and_eq_true, decide_eq_true_eq] at hcovers
    rw [← h, toNat_charOfNat] at hd
    split at hd <;> omega
  · exact h

-- Signs and digits of a text's lower case stand in the text.
theorem mem_of_mem_lowercase {s : String} {c : Char} (h : c ∈ (lowercase s).toList)
    (hc : 0 < c.toNat ∧ c.toNat ≤ 64) : c ∈ s.toList := by
  have hall : ∀ cs before : List Char, c ∈ lowerAfter before cs → c ∈ cs := by
    intro cs
    induction cs with
    | nil => exact fun before hmem => hmem
    | cons d cs ih =>
      intro before hmem
      rw [lowerAfter, List.mem_append] at hmem
      rcases hmem with hmem | hmem
      · split at hmem
        · rw [List.mem_singleton] at hmem
          subst hmem
          split at hc <;> exact absurd hc (by decide)
        · split at hmem
          · simp only [List.mem_cons, List.not_mem_nil, or_false] at hmem
            rcases hmem with rfl | rfl <;> exact absurd hc (by decide)
          · rw [eq_of_smallLetter (List.mem_singleton.mp hmem).symm hc]
            exact List.mem_cons_self
      · exact List.mem_cons_of_mem _ (ih _ hmem)
  rw [lowercase, String.toList_ofList] at h
  exact hall s.toList [] h

end Text

namespace Url.Domain

open Text (isSmall)

theorem isSmall_labelDigit {n : Nat} (h : n < 36) : isSmall (labelDigit n) = true := by
  have hall : ∀ n < 36, isSmall (labelDigit n) = true := by decide
  exact hall n h

theorem threshold_le (position bias : Nat) : threshold position bias ≤ 26 := by
  unfold threshold
  split
  · omega
  · split <;> omega

theorem isSmall_variableDigits (fuel bias position n : Nat) :
    ∀ c ∈ variableDigits fuel bias position n, isSmall c = true := by
  induction fuel generalizing position n with
  | zero => exact fun c h => absurd h List.not_mem_nil
  | succ fuel ih =>
    have hle := threshold_le position bias
    intro c h
    unfold variableDigits at h
    simp only at h
    split at h
    · rw [List.mem_singleton.mp h]
      exact isSmall_labelDigit (by omega)
    · rcases List.mem_cons.mp h with rfl | h
      · have hlt := Nat.mod_lt (n - threshold position bias)
          (by omega : 0 < 36 - threshold position bias)
        exact isSmall_labelDigit (by omega)
      · exact ih _ _ c h

def Progress.Small (p : Progress) : Prop := ∀ c ∈ p.output, isSmall c = true

theorem visit_small (basic point : Nat) {p : Progress} (h : p.Small) (c : Char) :
    (visit basic point p c).Small := by
  unfold visit
  split
  · exact h
  · split
    · intro d hd
      rcases List.mem_append.mp hd with hd | hd
      · exact h d hd
      · exact isSmall_variableDigits _ _ _ _ d hd
    · exact h

theorem encodePoints_small (label : List Char) (basic : Nat) (points : List Nat) (next : Nat)
    {p : Progress} (h : p.Small) : (encodePoints label basic points next p).Small := by
  have hpass : ∀ (cs : List Char) (point : Nat) (p : Progress), p.Small →
      (cs.foldl (visit basic point) p).Small := by
    intro cs point
    induction cs with
    | nil => exact fun p h => h
    | cons c cs ih => exact fun p h => ih _ (visit_small basic point h c)
  induction points generalizing next p with
  | nil => exact h
  | cons point points ih =>
    have hdone := hpass label point
      { p with delta := p.delta + (point - next) * (p.written + 1) } h
    exact ih (point + 1) hdone

theorem asciiLabel_small {label : List Char} (h : ∀ c ∈ label, c.toNat < 128 → isSmall c = true) :
    ∀ c ∈ asciiLabel label, isSmall c = true := by
  intro c hc
  unfold asciiLabel at hc
  split at hc
  · rename_i hascii
    exact h c hc (by simpa using List.all_eq_true.mp hascii c hc)
  · rw [encodeLabel, List.mem_append, List.mem_append] at hc
    rcases hc with hc | hc | hc
    · have hmark : ∀ c ∈ "xn--".toList, isSmall c = true := List.all_eq_true.mp (by decide)
      exact hmark c hc
    · split at hc
      · exact absurd hc List.not_mem_nil
      · rcases List.mem_append.mp hc with hc | hc
        · obtain ⟨hmem, hascii⟩ := List.mem_filter.mp hc
          exact h c hmem (by simpa using hascii)
        · rw [List.mem_singleton.mp hc]
          decide
    · exact encodePoints_small _ _ _ _ (fun d hd => absurd hd List.not_mem_nil) c hc

-- What the ASCII form of a name consists of.
def Settled (cs : List Char) : Prop := ∀ c ∈ cs, isSmall c = true ∧ isForbidden c = false

theorem settled_of_ascii? {name : String} {cs : List Char} (h : ascii? name = some cs) :
    Settled cs := by
  simp only [ascii?, Text.splitOn_eq_splitOnP] at h
  split at h
  · exact nomatch h
  · rename_i hallowed
    have hcs := Option.some.inj h
    intro c hc
    have hforbidden : isForbidden c = false := by
      rw [Bool.eq_false_iff]
      exact fun hbad => hallowed (List.any_eq_true.mpr ⟨c, hcs ▸ hc, hbad⟩)
    refine ⟨?_, hforbidden⟩
    rw [← hcs] at hc
    rcases Text.mem_intercalate hc with hc | ⟨label, hlabel, hc⟩
    · rw [List.mem_singleton.mp hc]
      decide
    · obtain ⟨lowered, hlowered, rfl⟩ := List.mem_map.mp hlabel
      refine asciiLabel_small (fun d hd hascii => ?_) c hc
      have hmem := (Text.mem_of_mem_splitOnP hlowered hd).1
      rw [Text.lowercase, String.toList_ofList] at hmem
      exact Text.isSmall_of_mem_lowerAfter hmem hascii

theorem splitOn_isDot {cs : List Char} (h : Settled cs) :
    Text.splitOn isDot cs = cs.splitOn '.' := by
  have hascii : ∀ c : Char, c.toNat < 128 → isDot c = (c == '.') := Text.forall_ascii (by decide)
  rw [Text.splitOn_congr fun c hc => hascii c (Text.isSmall_ascii (h c hc).1),
    Text.splitOn_eq_splitOnP, List.splitOn_eq_splitOnP]

-- A settled text is its own ASCII form.
theorem ascii?_settled {cs : List Char} (h : Settled cs) : ascii? (String.ofList cs) = some cs := by
  have hlower : (Text.lowercase (String.ofList cs)).toList = cs := by
    rw [Text.lowercase, String.toList_ofList, String.toList_ofList,
      Text.lowerAfter_small fun c hc => (h c hc).1]
  have hlabels : (cs.splitOn '.').map asciiLabel = cs.splitOn '.' := by
    have hkept : ∀ label ∈ cs.splitOn '.', asciiLabel label = id label := by
      intro label hlabel
      rw [List.splitOn_eq_splitOnP] at hlabel
      have hascii : label.all (fun c => c.toNat < 128) = true := by
        rw [List.all_eq_true]
        intro c hc
        exact decide_eq_true (Text.isSmall_ascii (h c (Text.mem_of_mem_splitOnP hlabel hc).1).1)
      rw [asciiLabel, if_pos hascii, id_eq]
    rw [List.map_congr_left hkept, List.map_id]
  have hallowed : ¬cs.any isForbidden = true := by
    intro hany
    obtain ⟨c, hc, hbad⟩ := List.any_eq_true.mp hany
    rw [(h c hc).2] at hbad
    exact nomatch hbad
  simp only [ascii?, hlower, splitOn_isDot h, hlabels, List.intercalate_splitOn, if_neg hallowed]

end Url.Domain

end BlobStorage
