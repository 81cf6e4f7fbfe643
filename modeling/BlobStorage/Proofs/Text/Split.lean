import BlobStorage.Text.Split
import Mathlib.Data.List.DropRight
import Mathlib.Data.List.TakeWhile

-- Splitting at separators and joining undo each other, and what is read up to a boundary.
namespace BlobStorage.Text

theorem splitOn_eq_splitOnP (separator : α → Bool) (xs : List α) :
    splitOn separator xs = xs.splitOnP separator := by
  induction xs with
  | nil => rfl
  | cons x xs ih =>
    rw [splitOn, List.splitOnP_cons_eq_if_modifyHead, ← ih]
    obtain ⟨part, more, hparts⟩ := List.exists_cons_of_ne_nil (splitOn_ne_nil separator xs)
    rw [hparts]
    rfl

theorem split_eq_map (separator : Char) (s : String) :
    split separator s = (s.toList.splitOn separator).map String.ofList := by
  rw [split, splitOn_eq_splitOnP, List.splitOn_eq_splitOnP]

theorem split_ne_nil (separator : Char) (s : String) : split separator s ≠ [] := by
  rw [split, Ne, List.map_eq_nil_iff]
  exact splitOn_ne_nil _ _

theorem toList_split (separator : Char) (s : String) :
    (split separator s).map String.toList = s.toList.splitOn separator := by
  rw [split_eq_map, List.map_map]
  exact List.map_id'' (fun _ => String.toList_ofList) _

-- The parts of a text joined again.
theorem intercalate_split (separator : Char) (s : String) :
    (String.singleton separator).intercalate (split separator s) = s := by
  rw [← String.toList_inj, String.toList_intercalate, toList_split, String.toList_singleton]
  exact List.intercalate_splitOn separator

-- Parts without the separator are what their joined text splits into.
theorem split_intercalate {separator : Char} {parts : List String} (hne : parts ≠ [])
    (hparts : ∀ part ∈ parts, separator ∉ part.toList) :
    split separator ((String.singleton separator).intercalate parts) = parts := by
  have hmap : (parts.map String.toList) ≠ [] := fun h => hne (List.map_eq_nil_iff.mp h)
  have hmem : ∀ cs ∈ parts.map String.toList, separator ∉ cs := by
    intro cs hcs
    obtain ⟨part, hpart, rfl⟩ := List.mem_map.mp hcs
    exact hparts part hpart
  rw [split_eq_map, String.toList_intercalate, String.toList_singleton,
    List.splitOn_intercalate separator hmem hmap, List.map_map]
  exact List.map_id'' (fun _ => String.ofList_toList) _

-- A separator in a text splits it into the parts in front of it and those behind it.
theorem split_append_cons (separator : Char) (cs ds : List Char) :
    split separator (String.ofList (cs ++ separator :: ds)) =
      split separator (String.ofList cs) ++ split separator (String.ofList ds) := by
  simp only [split_eq_map, String.toList_ofList, List.splitOn_append_cons_self, List.map_append]

-- No part holds the separator, and no part holds what the text does not.
theorem mem_of_mem_splitOnP {p : α → Bool} {xs part : List α} {x : α} (hpart : part ∈ xs.splitOnP p)
    (hx : x ∈ part) : x ∈ xs ∧ p x = false := by
  induction xs generalizing part with
  | nil =>
    rw [List.splitOnP_nil, List.mem_singleton] at hpart
    subst hpart
    exact absurd hx List.not_mem_nil
  | cons y ys ih =>
    rw [List.splitOnP_cons_eq_if_modifyHead] at hpart
    obtain ⟨first, more, hparts⟩ := List.exists_cons_of_ne_nil (List.splitOnP_ne_nil p ys)
    rw [hparts] at hpart ih
    split at hpart
    · rcases List.mem_cons.mp hpart with rfl | hpart
      · exact absurd hx List.not_mem_nil
      · exact (ih hpart hx).imp_left (List.mem_cons_of_mem _)
    · rename_i hy
      rcases List.mem_cons.mp hpart with rfl | hpart
      · rcases List.mem_cons.mp hx with rfl | hx
        · exact ⟨List.mem_cons_self, by simpa using hy⟩
        · exact (ih List.mem_cons_self hx).imp_left (List.mem_cons_of_mem _)
      · exact (ih (List.mem_cons_of_mem _ hpart) hx).imp_left (List.mem_cons_of_mem _)

theorem splitOn_congr {p q : α → Bool} {xs : List α} (h : ∀ x ∈ xs, p x = q x) :
    splitOn p xs = splitOn q xs := by
  induction xs with
  | nil => rfl
  | cons x xs ih =>
    rw [splitOn, splitOn, h x List.mem_cons_self, ih fun y hy => h y (List.mem_cons_of_mem _ hy)]

theorem mem_intercalate {separator : List α} {parts : List (List α)} {x : α}
    (h : x ∈ separator.intercalate parts) : x ∈ separator ∨ ∃ part ∈ parts, x ∈ part := by
  induction parts with
  | nil => exact absurd h List.not_mem_nil
  | cons part more ih =>
    by_cases hmore : more = []
    · subst hmore
      rw [List.intercalate_singleton] at h
      exact .inr ⟨part, List.mem_cons_self, h⟩
    · rw [List.intercalate_cons_of_ne_nil hmore, List.mem_append, List.mem_append] at h
      rcases h with (h | h) | h
      · exact .inr ⟨part, List.mem_cons_self, h⟩
      · exact .inl h
      · exact (ih h).imp_right fun ⟨other, hother, hx⟩ =>
          ⟨other, List.mem_cons_of_mem _ hother, hx⟩

theorem mem_of_mem_split {separator c : Char} {s part : String} (hpart : part ∈ split separator s)
    (hc : c ∈ part.toList) : c ∈ s.toList ∧ c ≠ separator := by
  rw [split_eq_map, List.splitOn_eq_splitOnP] at hpart
  obtain ⟨cs, hcs, rfl⟩ := List.mem_map.mp hpart
  rw [String.toList_ofList] at hc
  exact (mem_of_mem_splitOnP hcs hc).imp_right fun h => by simpa using h

section Boundary

variable {p : α → Bool} {front rest : List α}

theorem dropWhile_eq_self_iff {xs : List α} : xs.dropWhile p = xs ↔ ∀ x ∈ xs.head?, p x = false := by
  rw [List.dropWhile_eq_self_iff]
  cases xs with
  | nil => simp
  | cons x xs => simp

-- What is read up to a boundary, and what is left behind it.
theorem takeWhile_boundary (hfront : ∀ x ∈ front, p x = true) (hrest : ∀ x ∈ rest.head?, p x = false) :
    (front ++ rest).takeWhile p = front := by
  rw [List.takeWhile_append_of_pos hfront]
  cases rest with
  | nil => rw [List.takeWhile_nil, List.append_nil]
  | cons x rest => rw [List.takeWhile_cons, if_neg (by rw [hrest x rfl]; decide), List.append_nil]

theorem dropWhile_boundary (hfront : ∀ x ∈ front, p x = true) (hrest : ∀ x ∈ rest.head?, p x = false) :
    (front ++ rest).dropWhile p = rest := by
  rw [List.dropWhile_append_of_pos hfront, dropWhile_eq_self_iff.mpr hrest]

end Boundary

section Ends

variable {p : Char → Bool} {cs : List Char}

theorem dropRightWhile_eq_nil_iff : dropRightWhile p cs = [] ↔ ∀ c ∈ cs, p c = true :=
  List.rdropWhile_eq_nil_iff

theorem dropRightWhile_eq_self (h : ∀ c ∈ cs.getLast?, p c = false) : dropRightWhile p cs = cs := by
  rw [← List.head?_reverse] at h
  rw [dropRightWhile, dropWhile_eq_self_iff.mpr h, List.reverse_reverse]

theorem trim_eq_empty_iff {s : String} : trim s = "" ↔ ∀ c ∈ s.toList, isBlank c = true := by
  rw [trim, ← String.toList_inj, String.toList_ofList, String.toList_empty,
    dropRightWhile_eq_nil_iff, ← List.dropWhile_eq_nil_iff,
    List.dropWhile_idempotent isBlank s.toList, List.dropWhile_eq_nil_iff]

end Ends

section Lines

variable {mark first : α} {lines others : List (List α)} {rest behind : List α}

-- What stands in front of the first mark, and behind it.
theorem boundary_inj {front other : List α} (hfront : mark ∉ front) (hother : mark ∉ other)
    (h : front ++ mark :: rest = other ++ mark :: behind) : front = other ∧ rest = behind := by
  induction front generalizing other with
  | nil =>
    cases other with
    | nil => exact ⟨rfl, (List.cons.inj h).2⟩
    | cons x other => exact absurd (List.cons.inj h).1 (List.ne_of_not_mem_cons hother)
  | cons x front ih =>
    cases other with
    | nil => exact absurd (List.cons.inj h).1.symm (List.ne_of_not_mem_cons hfront)
    | cons y other =>
      obtain ⟨hx, hmore⟩ := List.cons.inj h
      obtain ⟨hsame, hrest⟩ := ih (List.not_mem_of_not_mem_cons hfront)
        (List.not_mem_of_not_mem_cons hother) hmore
      exact ⟨by rw [hx, hsame], hrest⟩

theorem intercalate_cons_eq_flatMap (separator line : List α) (lines : List (List α)) :
    separator.intercalate (line :: lines) = line ++ lines.flatMap (separator ++ ·) := by
  induction lines generalizing line with
  | nil => rw [List.intercalate_singleton, List.flatMap_nil, List.append_nil]
  | cons next rest ih =>
    rw [List.intercalate_cons_of_ne_nil (List.cons_ne_nil _ _), ih, List.flatMap_cons,
      List.append_assoc, List.append_assoc]

end Lines

end BlobStorage.Text
