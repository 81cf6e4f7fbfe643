import BlobStorage.Text.Utf8

-- UTF-8 reads back what it wrote, and keeps the order of texts.
namespace BlobStorage.Text

open Bytes (toNat_ofNat)

namespace Utf8

-- The scalar value of a character leaves out the surrogates.
theorem scalar_bounds (c : Char) : c.toNat < 0xD800 ∨ 0xE000 ≤ c.toNat ∧ c.toNat < 0x110000 := by
  have h := c.valid
  simp only [UInt32.isValidChar, Nat.isValidChar] at h
  have hn : c.toNat = c.val.toNat := rfl
  omega

theorem encode_one {c : Char} (h : c.toNat < 0x80) :
    String.utf8EncodeChar c = [UInt8.ofNat c.toNat] := by
  have hv : c.val.toNat ≤ 0x7F := Nat.le_of_lt_succ h
  simp only [String.utf8EncodeChar, hv, if_true]
  rfl

theorem encode_two {c : Char} (hlo : 0x80 ≤ c.toNat) (hhi : c.toNat < 0x800) :
    String.utf8EncodeChar c =
      [UInt8.ofNat (c.toNat / 64 + 0xC0), UInt8.ofNat (c.toNat % 64 + 0x80)] := by
  have h1 : ¬c.val.toNat ≤ 0x7F := Nat.not_le.mpr hlo
  have h2 : c.val.toNat ≤ 0x7FF := Nat.le_of_lt_succ hhi
  have hd : c.val.toNat / 64 % 32 = c.val.toNat / 64 := by omega
  simp only [String.utf8EncodeChar, h1, h2, if_true, if_false, hd]
  rfl

theorem encode_three {c : Char} (hlo : 0x800 ≤ c.toNat) (hhi : c.toNat < 0x10000) :
    String.utf8EncodeChar c =
      [UInt8.ofNat (c.toNat / 4096 + 0xE0), UInt8.ofNat (c.toNat / 64 % 64 + 0x80),
        UInt8.ofNat (c.toNat % 64 + 0x80)] := by
  have hlo' : 0x800 ≤ c.val.toNat := hlo
  have h1 : ¬c.val.toNat ≤ 0x7F := by omega
  have h2 : ¬c.val.toNat ≤ 0x7FF := by omega
  have h3 : c.val.toNat ≤ 0xFFFF := Nat.le_of_lt_succ hhi
  have hd : c.val.toNat / 4096 % 16 = c.val.toNat / 4096 := by omega
  simp only [String.utf8EncodeChar, h1, h2, h3, if_true, if_false, hd]
  rfl

theorem encode_four {c : Char} (hlo : 0x10000 ≤ c.toNat) :
    String.utf8EncodeChar c =
      [UInt8.ofNat (c.toNat / 262144 + 0xF0), UInt8.ofNat (c.toNat / 4096 % 64 + 0x80),
        UInt8.ofNat (c.toNat / 64 % 64 + 0x80), UInt8.ofNat (c.toNat % 64 + 0x80)] := by
  have hlo' : 0x10000 ≤ c.val.toNat := hlo
  have hhi : c.val.toNat < 0x110000 := (scalar_bounds c).elim (fun h => by
    have : c.val.toNat < 0xD800 := h
    omega) (·.2)
  have h1 : ¬c.val.toNat ≤ 0x7F := by omega
  have h2 : ¬c.val.toNat ≤ 0x7FF := by omega
  have h3 : ¬c.val.toNat ≤ 0xFFFF := by omega
  have hd : c.val.toNat / 262144 % 8 = c.val.toNat / 262144 := by omega
  simp only [String.utf8EncodeChar, h1, h2, h3, if_false, hd]
  rfl

-- The second byte of three is restricted just enough for the scalar values that take three bytes.
theorem secondFits_three {c : Char} (hlo : 0x800 ≤ c.toNat) (hhi : c.toNat < 0x10000) :
    secondFits (UInt8.ofNat (c.toNat / 4096 + 0xE0)) (UInt8.ofNat (c.toNat / 64 % 64 + 0x80)) =
      true := by
  have hb := scalar_bounds c
  simp only [secondFits, isContinuation, toNat_ofNat (show c.toNat / 4096 + 0xE0 < 256 by omega),
    toNat_ofNat (show c.toNat / 64 % 64 + 0x80 < 256 by omega)]
  repeat' split
  all_goals simp only [Bool.and_eq_true, decide_eq_true_eq, and_true]
  all_goals omega

theorem secondFits_four {c : Char} (hlo : 0x10000 ≤ c.toNat) :
    secondFits (UInt8.ofNat (c.toNat / 262144 + 0xF0)) (UInt8.ofNat (c.toNat / 4096 % 64 + 0x80)) =
      true := by
  have hb := scalar_bounds c
  simp only [secondFits, isContinuation,
    toNat_ofNat (show c.toNat / 262144 + 0xF0 < 256 by omega),
    toNat_ofNat (show c.toNat / 4096 % 64 + 0x80 < 256 by omega)]
  repeat' split
  all_goals simp only [Bool.and_eq_true, decide_eq_true_eq, and_true]
  all_goals omega

theorem isContinuation_ofNat (n : Nat) : isContinuation (UInt8.ofNat (n % 64 + 0x80)) = true := by
  simp only [isContinuation, toNat_ofNat (show n % 64 + 0x80 < 256 by omega), Bool.and_eq_true,
    decide_eq_true_eq]
  omega

theorem payload_ofNat (n : Nat) : payload (UInt8.ofNat (n % 64 + 0x80)) = n % 64 := by
  simp only [payload, toNat_ofNat (show n % 64 + 0x80 < 256 by omega)]
  omega

-- A character reads back from its bytes, whatever follows them.
theorem scalars_encode (c : Char) (rest : Bytes) :
    scalars (String.utf8EncodeChar c ++ rest) = some c :: scalars rest := by
  have hb := scalar_bounds c
  have hc : Char.ofNat c.toNat = c := Char.ofNat_toNat c
  by_cases h1 : c.toNat < 0x80
  · have hread : readScalar (UInt8.ofNat c.toNat) rest = (some c, rest) := by
      unfold readScalar
      rw [toNat_ofNat (by omega), if_pos h1, hc]
    rw [encode_one h1, List.singleton_append, scalars, hread]
  by_cases h2 : c.toNat < 0x800
  · have hval : (c.toNat / 64 + 0xC0) % 32 * 64 + c.toNat % 64 = c.toNat := by omega
    have hread : readScalar (UInt8.ofNat (c.toNat / 64 + 0xC0))
        (UInt8.ofNat (c.toNat % 64 + 0x80) :: rest) = (some c, rest) := by
      unfold readScalar
      rw [toNat_ofNat (by omega), if_neg (by omega), if_neg (by omega), if_pos (by omega)]
      simp only [isContinuation_ofNat, payload_ofNat, hval, hc, if_true]
    rw [encode_two (by omega) h2, List.cons_append, List.singleton_append, scalars, hread]
  by_cases h3 : c.toNat < 0x10000
  · have hval : ((c.toNat / 4096 + 0xE0) % 16 * 64 + c.toNat / 64 % 64) * 64 + c.toNat % 64 =
        c.toNat := by omega
    have hread : readScalar (UInt8.ofNat (c.toNat / 4096 + 0xE0))
        (UInt8.ofNat (c.toNat / 64 % 64 + 0x80) :: UInt8.ofNat (c.toNat % 64 + 0x80) :: rest) =
        (some c, rest) := by
      unfold readScalar
      rw [toNat_ofNat (by omega), if_neg (by omega), if_neg (by omega), if_neg (by omega),
        if_pos (by omega)]
      simp only [secondFits_three (by omega : 0x800 ≤ c.toNat) h3, isContinuation_ofNat,
        payload_ofNat, hval, hc, if_true]
    rw [encode_three (by omega) h3, List.cons_append, List.cons_append, List.singleton_append,
      scalars, hread]
  · have hval : (((c.toNat / 262144 + 0xF0) % 8 * 64 + c.toNat / 4096 % 64) * 64
        + c.toNat / 64 % 64) * 64 + c.toNat % 64 = c.toNat := by omega
    have hread : readScalar (UInt8.ofNat (c.toNat / 262144 + 0xF0))
        (UInt8.ofNat (c.toNat / 4096 % 64 + 0x80) :: UInt8.ofNat (c.toNat / 64 % 64 + 0x80)
          :: UInt8.ofNat (c.toNat % 64 + 0x80) :: rest) = (some c, rest) := by
      unfold readScalar
      rw [toNat_ofNat (by omega), if_neg (by omega), if_neg (by omega), if_neg (by omega),
        if_neg (by omega), if_pos (by omega)]
      simp only [secondFits_four (by omega : 0x10000 ≤ c.toNat), isContinuation_ofNat,
        payload_ofNat, hval, hc, if_true]
    rw [encode_four (by omega), List.cons_append, List.cons_append, List.cons_append,
      List.singleton_append, scalars, hread]

theorem scalars_flatMap (cs : List Char) :
    scalars (cs.flatMap String.utf8EncodeChar) = cs.map some := by
  induction cs with
  | nil => rw [List.flatMap_nil, scalars, List.map_nil]
  | cons c cs ih => rw [List.flatMap_cons, scalars_encode, ih, List.map_cons]

theorem cons_lt_cons {m n : Nat} (hm : m < 256) (hn : n < 256) {xs ys : Bytes}
    (h : m < n ∨ m = n ∧ xs < ys) : UInt8.ofNat m :: xs < UInt8.ofNat n :: ys := by
  apply List.cons_lt_cons_iff.mpr
  rcases h with h | ⟨rfl, h⟩
  · left
    rw [UInt8.lt_iff_toNat_lt, toNat_ofNat hm, toNat_ofNat hn]
    exact h
  · exact .inr ⟨rfl, h⟩

-- The bytes of a smaller character come first, whatever follows. Of characters with as many bytes the
-- first byte that differs decides; of others already the leading bytes differ.
theorem encode_lt {c d : Char} (h : c.toNat < d.toNat) (xs ys : Bytes) :
    String.utf8EncodeChar c ++ xs < String.utf8EncodeChar d ++ ys := by
  have hc := scalar_bounds c
  have hd := scalar_bounds d
  by_cases c1 : c.toNat < 0x80
  · rw [encode_one c1]
    by_cases d1 : d.toNat < 0x80
    · rw [encode_one d1]
      exact cons_lt_cons (by omega) (by omega) (.inl h)
    by_cases d2 : d.toNat < 0x800
    · rw [encode_two (by omega) d2]
      exact cons_lt_cons (by omega) (by omega) (.inl (by omega))
    by_cases d3 : d.toNat < 0x10000
    · rw [encode_three (by omega) d3]
      exact cons_lt_cons (by omega) (by omega) (.inl (by omega))
    · rw [encode_four (by omega)]
      exact cons_lt_cons (by omega) (by omega) (.inl (by omega))
  by_cases c2 : c.toNat < 0x800
  · rw [encode_two (by omega) c2]
    by_cases d2 : d.toNat < 0x800
    · rw [encode_two (by omega) d2]
      have hlex : c.toNat / 64 + 0xC0 < d.toNat / 64 + 0xC0 ∨
          c.toNat / 64 + 0xC0 = d.toNat / 64 + 0xC0 ∧ c.toNat % 64 + 0x80 < d.toNat % 64 + 0x80 := by
        omega
      exact cons_lt_cons (by omega) (by omega)
        (hlex.imp_right fun h => ⟨h.1, cons_lt_cons (by omega) (by omega) (.inl h.2)⟩)
    by_cases d3 : d.toNat < 0x10000
    · rw [encode_three (by omega) d3]
      exact cons_lt_cons (by omega) (by omega) (.inl (by omega))
    · rw [encode_four (by omega)]
      exact cons_lt_cons (by omega) (by omega) (.inl (by omega))
  by_cases c3 : c.toNat < 0x10000
  · rw [encode_three (by omega) c3]
    by_cases d3 : d.toNat < 0x10000
    · rw [encode_three (by omega) d3]
      have hlex : c.toNat / 4096 + 0xE0 < d.toNat / 4096 + 0xE0 ∨
          c.toNat / 4096 + 0xE0 = d.toNat / 4096 + 0xE0 ∧
            (c.toNat / 64 % 64 + 0x80 < d.toNat / 64 % 64 + 0x80 ∨
              c.toNat / 64 % 64 + 0x80 = d.toNat / 64 % 64 + 0x80 ∧
                c.toNat % 64 + 0x80 < d.toNat % 64 + 0x80) := by
        omega
      refine cons_lt_cons (by omega) (by omega) (hlex.imp_right fun h => ⟨h.1, ?_⟩)
      refine cons_lt_cons (by omega) (by omega) (h.2.imp_right fun h => ⟨h.1, ?_⟩)
      exact cons_lt_cons (by omega) (by omega) (.inl h.2)
    · rw [encode_four (by omega)]
      exact cons_lt_cons (by omega) (by omega) (.inl (by omega))
  · rw [encode_four (by omega), encode_four (by omega)]
    have hlex : c.toNat / 262144 + 0xF0 < d.toNat / 262144 + 0xF0 ∨
        c.toNat / 262144 + 0xF0 = d.toNat / 262144 + 0xF0 ∧
          (c.toNat / 4096 % 64 + 0x80 < d.toNat / 4096 % 64 + 0x80 ∨
            c.toNat / 4096 % 64 + 0x80 = d.toNat / 4096 % 64 + 0x80 ∧
              (c.toNat / 64 % 64 + 0x80 < d.toNat / 64 % 64 + 0x80 ∨
                c.toNat / 64 % 64 + 0x80 = d.toNat / 64 % 64 + 0x80 ∧
                  c.toNat % 64 + 0x80 < d.toNat % 64 + 0x80)) := by
      omega
    refine cons_lt_cons (by omega) (by omega) (hlex.imp_right fun h => ⟨h.1, ?_⟩)
    refine cons_lt_cons (by omega) (by omega) (h.2.imp_right fun h => ⟨h.1, ?_⟩)
    refine cons_lt_cons (by omega) (by omega) (h.2.imp_right fun h => ⟨h.1, ?_⟩)
    exact cons_lt_cons (by omega) (by omega) (.inl h.2)

theorem flatMap_lt {cs ds : List Char} (h : cs < ds) :
    cs.flatMap String.utf8EncodeChar < ds.flatMap String.utf8EncodeChar := by
  induction cs generalizing ds with
  | nil =>
    cases ds with
    | nil => exact absurd h (List.lt_irrefl _)
    | cons d ds =>
      obtain ⟨b, bs, hb⟩ := List.exists_cons_of_ne_nil (String.utf8EncodeChar_ne_nil (c := d))
      rw [List.flatMap_nil, List.flatMap_cons, hb]
      exact List.nil_lt_cons _ _
  | cons c cs ih =>
    cases ds with
    | nil => exact absurd h (List.not_lt_nil _)
    | cons d ds =>
      rw [List.flatMap_cons, List.flatMap_cons]
      rcases List.cons_lt_cons_iff.mp h with hlt | ⟨rfl, hlt⟩
      · exact encode_lt hlt _ _
      · exact List.append_left_lt (ih hlt)

end Utf8

-- The UTF-8 bytes of characters.
theorem utf8_ofList (cs : List Char) :
    utf8 (String.ofList cs) = cs.flatMap String.utf8EncodeChar := by
  rw [utf8, String.toList_ofList]

theorem ofUtf8?_utf8 (s : String) : ofUtf8? (utf8 s) = some s := by
  have hsome : (s.toList.map some).mapM id = some s.toList := by
    induction s.toList with
    | nil => rfl
    | cons c cs ih => rw [List.map_cons, List.mapM_cons, ih]; rfl
  rw [ofUtf8?, utf8, Utf8.scalars_flatMap, hsome, Option.map_some, String.ofList_toList]

theorem ofUtf8Lossy_utf8 (s : String) : ofUtf8Lossy (utf8 s) = s := by
  rw [ofUtf8Lossy, utf8, Utf8.scalars_flatMap, List.map_map]
  have hid : s.toList.map ((·.getD '\uFFFD') ∘ some) = s.toList := List.map_id'' (fun _ => rfl) _
  rw [hid, String.ofList_toList]

theorem toNat_charOfNat (n : Nat) : (Char.ofNat n).toNat = if n.isValidChar then n else 0 := by
  by_cases h : n.isValidChar
  · rw [Char.ofNat, dif_pos h, if_pos h]
    rfl
  · rw [Char.ofNat, dif_neg h, if_neg h]
    rfl

-- What holds of the first 128 characters one by one.
theorem forall_ascii {p : Char → Prop} (h : ∀ n < 128, p (Char.ofNat n)) :
    ∀ c : Char, c.toNat < 128 → p c :=
  fun c hc => Char.ofNat_toNat c ▸ h c.toNat hc

theorem utf8_ascii {cs : List Char} (h : ∀ c ∈ cs, c.toNat < 128) :
    cs.flatMap String.utf8EncodeChar = cs.map fun c => UInt8.ofNat c.toNat := by
  induction cs with
  | nil => rfl
  | cons c cs ih =>
    rw [List.flatMap_cons, Utf8.encode_one (h c List.mem_cons_self), List.map_cons,
      ih fun d hd => h d (List.mem_cons_of_mem _ hd), List.singleton_append]

-- Among ASCII characters a byte stands for its own character only.
theorem byte_not_mem {cs : List Char} {d : Char} (hd : d.toNat < 128)
    (h : ∀ c ∈ cs, c.toNat < 128 ∧ c ≠ d) :
    UInt8.ofNat d.toNat ∉ cs.flatMap String.utf8EncodeChar := by
  rw [utf8_ascii fun c hc => (h c hc).1, List.mem_map]
  rintro ⟨c, hc, hbyte⟩
  obtain ⟨hascii, hne⟩ := h c hc
  have hnat := congrArg UInt8.toNat hbyte
  rw [toNat_ofNat (by omega), toNat_ofNat (by omega)] at hnat
  exact hne (Char.toNat_inj.mp hnat)

theorem utf8_injective {s t : String} (h : utf8 s = utf8 t) : s = t := by
  have hread := congrArg ofUtf8? h
  rw [ofUtf8?_utf8, ofUtf8?_utf8] at hread
  exact Option.some.inj hread

-- The order of texts is that of their bytes.
theorem utf8_lt_utf8 {s t : String} : utf8 s < utf8 t ↔ s < t := by
  constructor
  · intro h
    apply Decidable.byContradiction
    intro hn
    rcases Decidable.em (s = t) with rfl | hne
    · exact List.lt_irrefl _ h
    · have hlt : t < s := Std.lt_of_le_of_ne (Std.not_lt.mp hn) (Ne.symm hne)
      exact List.lt_irrefl _ (List.lt_trans h (Utf8.flatMap_lt hlt))
  · exact Utf8.flatMap_lt

end BlobStorage.Text
