namespace BlobStorage.Ordered

-- Association lists in ascending order of their keys. The order of texts is that of their UTF-8 bytes.

-- Puts what `change` makes of the value at a key, or of its absence, at that key.
def update (key : String) (change : Option α → α) : List (String × α) → List (String × α)
  | [] => [(key, change none)]
  | (k, v) :: rest =>
    if key < k then (key, change none) :: (k, v) :: rest
    else if key = k then (k, change (some v)) :: rest
    else (k, v) :: update key change rest

def insert (key : String) (value : α) (entries : List (String × α)) : List (String × α) :=
  update key (fun _ => value) entries

def erase (key : String) (entries : List (String × α)) : List (String × α) :=
  entries.filter (·.1 ≠ key)

def find? (key : String) (entries : List (String × α)) : Option α :=
  entries.lookup key

def Ascending (entries : List (String × α)) : Prop :=
  entries.Pairwise fun a b => a.1 < b.1

theorem mem_update {key : String} {change : Option α → α} {entries : List (String × α)}
    {e : String × α} (h : e ∈ update key change entries) : e.1 = key ∨ e ∈ entries := by
  induction entries with
  | nil => simp only [update, List.mem_singleton] at h; exact .inl (congrArg Prod.fst h)
  | cons head rest ih =>
    obtain ⟨k, v⟩ := head
    simp only [update] at h
    split at h
    · rcases List.mem_cons.mp h with rfl | h
      · exact .inl rfl
      · exact .inr h
    · split at h
      · rename_i hk
        rcases List.mem_cons.mp h with rfl | h
        · exact .inl hk.symm
        · exact .inr (List.mem_cons_of_mem _ h)
      · rcases List.mem_cons.mp h with rfl | h
        · exact .inr List.mem_cons_self
        · exact (ih h).imp_right (List.mem_cons_of_mem _)

theorem ascending_update {key : String} {change : Option α → α} {entries : List (String × α)}
    (h : Ascending entries) : Ascending (update key change entries) := by
  induction entries with
  | nil => simp [update, Ascending]
  | cons head rest ih =>
    obtain ⟨k, v⟩ := head
    have hrest := (List.pairwise_cons.mp h).2
    have hhead := (List.pairwise_cons.mp h).1
    simp only [update]
    split
    · rename_i hlt
      refine List.pairwise_cons.mpr ⟨fun e he => ?_, h⟩
      rcases List.mem_cons.mp he with rfl | he
      · exact hlt
      · exact String.lt_trans hlt (hhead e he)
    · split
      · exact List.pairwise_cons.mpr ⟨hhead, hrest⟩
      · rename_i hlt hne
        refine List.pairwise_cons.mpr ⟨fun e he => ?_, ih hrest⟩
        rcases mem_update he with hk | he
        · rw [hk]
          exact Std.lt_of_le_of_ne (Std.not_lt.mp hlt) (Ne.symm hne)
        · exact hhead e he

theorem ascending_erase {key : String} {entries : List (String × α)} (h : Ascending entries) :
    Ascending (erase key entries) :=
  h.filter _

end BlobStorage.Ordered
