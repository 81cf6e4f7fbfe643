import BlobStorage.Ordered

-- What is found in association lists after each change.
namespace BlobStorage

section Lookup

variable {κ α : Type} [BEq κ] [LawfulBEq κ] [DecidableEq κ]

theorem lookup_cons_eq_ite (other key : κ) (value : α) (entries : List (κ × α)) :
    ((key, value) :: entries).lookup other =
      if other = key then some value else entries.lookup other := by
  rw [List.lookup_cons]
  by_cases h : other = key
  · rw [if_pos h, beq_iff_eq.mpr h]
  · rw [if_neg h, beq_false_of_ne h]

-- Taking out all entries of a key hides no other key.
theorem lookup_filter_ne (entries : List (κ × α)) (key other : κ) :
    (entries.filter (·.1 ≠ key)).lookup other =
      if other = key then none else entries.lookup other := by
  induction entries with
  | nil => exact (ite_self _).symm
  | cons head rest ih =>
    obtain ⟨k, v⟩ := head
    rw [List.filter_cons, lookup_cons_eq_ite]
    by_cases hk : k = key
    · subst hk
      rw [if_neg (by simp), ih]
      by_cases hother : other = k
      · rw [if_pos hother, if_pos hother]
      · rw [if_neg hother, if_neg hother, if_neg hother]
    · rw [if_pos (by simpa using hk), lookup_cons_eq_ite, ih]
      by_cases hother : other = k
      · rw [if_pos hother, if_pos hother, if_neg]
        rw [hother]
        exact hk
      · rw [if_neg hother, if_neg hother]

end Lookup

namespace Ordered

variable {α : Type} {entries : List (String × α)} {key : String}

theorem find?_cons (other key : String) (value : α) (entries : List (String × α)) :
    find? other ((key, value) :: entries) =
      if other = key then some value else find? other entries :=
  lookup_cons_eq_ite other key value entries

-- Nothing is found in front of the first key.
theorem find?_eq_none_of_lt {value : α} {first : String} (h : Ascending ((first, value) :: entries))
    (hlt : key < first) : find? key ((first, value) :: entries) = none := by
  refine List.lookup_eq_none_iff.mpr fun e he => ?_
  have hne : key ≠ e.1 := by
    rintro rfl
    rcases List.mem_cons.mp he with rfl | he
    · exact String.lt_irrefl _ hlt
    · exact String.lt_asymm hlt ((List.pairwise_cons.mp h).1 e he)
  rw [bne_iff_ne.mpr hne]

theorem find?_update (h : Ascending entries) (key other : String) (change : Option α → α) :
    find? other (update key change entries) =
      if other = key then some (change (find? key entries)) else find? other entries := by
  induction entries with
  | nil => rw [update, find?_cons]; rfl
  | cons head rest ih =>
    obtain ⟨k, v⟩ := head
    rw [update]
    split
    · rename_i hlt
      rw [find?_cons, find?_eq_none_of_lt h hlt]
    · split
      · rename_i hk
        subst hk
        rw [find?_cons, find?_cons, find?_cons, if_pos rfl]
        split <;> rfl
      · rename_i hne
        have hrest := ih (List.pairwise_cons.mp h).2
        rw [find?_cons, hrest, find?_cons, find?_cons, if_neg hne]
        by_cases hother : other = k
        · rw [if_pos hother, if_pos hother, if_neg]
          rw [hother]
          exact Ne.symm hne
        · rw [if_neg hother, if_neg hother]

theorem find?_eq_some_iff (h : Ascending entries) {value : α} :
    find? key entries = some value ↔ (key, value) ∈ entries := by
  induction entries with
  | nil => simp [find?]
  | cons head rest ih =>
    obtain ⟨k, v⟩ := head
    rw [find?_cons, List.mem_cons, Prod.mk.injEq]
    by_cases hk : key = k
    · subst hk
      have hnot : (key, value) ∉ rest := fun hmem =>
        String.lt_irrefl key ((List.pairwise_cons.mp h).1 (key, value) hmem)
      rw [if_pos rfl, Option.some.injEq]
      exact ⟨fun heq => .inl ⟨rfl, heq.symm⟩, fun hmem => ((hmem.resolve_right hnot).2).symm⟩
    · rw [if_neg hk, ih (List.pairwise_cons.mp h).2]
      exact ⟨.inr, fun hmem => hmem.resolve_left fun heq => hk heq.1⟩

-- What is found tells ascending entries apart.
theorem Ascending.ext {others : List (String × α)} (h : Ascending entries) (h' : Ascending others)
    (hfind : ∀ key, find? key entries = find? key others) : entries = others := by
  have hperm : entries.Perm others := by
    have hnodup : ∀ {xs : List (String × α)}, Ascending xs → xs.Nodup := by
      intro xs hxs
      refine List.Pairwise.imp ?_ hxs
      rintro a b hlt rfl
      exact String.lt_irrefl _ hlt
    refine (List.perm_ext_iff_of_nodup (hnodup h) (hnodup h')).mpr fun e => ?_
    rw [← find?_eq_some_iff h, ← find?_eq_some_iff h', hfind]
  exact hperm.eq_of_pairwise (fun a b _ _ hab hba => absurd hba (String.lt_asymm hab)) h h'

theorem Ascending.map {β : Type} (f : α → β) (h : Ascending entries) :
    Ascending (entries.map fun e => (e.1, f e.2)) :=
  List.pairwise_map.mpr h

theorem find?_erase (entries : List (String × α)) (key other : String) :
    find? other (erase key entries) = if other = key then none else find? other entries :=
  lookup_filter_ne entries key other

end Ordered

end BlobStorage
