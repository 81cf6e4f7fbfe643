import BlobStorage.Base64
import BlobStorage.Http.Header
import BlobStorage.Proofs.Text.Utf8

-- What was encoded reads back, and nothing but an encoding can be read: every byte string has one
-- text only.
namespace BlobStorage.Base64

theorem value?_symbol {v : Nat} (hv : v < 64) : value? (symbol v) = some v := by
  have hall : ∀ n < 64, value? (symbol n) = some n := by decide
  exact hall v hv

theorem value?_eq_some {b : UInt8} {v : Nat} (h : value? b = some v) : v < 64 ∧ b = symbol v := by
  have hall : ∀ n < 256, ∀ v ∈ value? (UInt8.ofNat n), v < 64 ∧ UInt8.ofNat n = symbol v := by
    decide +kernel
  have hb := hall b.toNat b.toNat_lt v
  rw [UInt8.ofNat_toNat] at hb
  exact hb h

theorem symbol_ne_padding {v : Nat} (hv : v < 64) : symbol v ≠ padding := by
  intro h
  have hvalue := value?_symbol hv
  rw [h] at hvalue
  exact nomatch hvalue

section Groups

variable {a b c d : Nat}

-- The bytes of a whole group of digits have these digits again.
theorem encode_three (ha : a < 64) (hb : b < 64) (hc : c < 64) (hd : d < 64) (rest : Bytes) :
    encode (UInt8.ofNat (a * 4 + b / 16) :: UInt8.ofNat (b % 16 * 16 + c / 4)
        :: UInt8.ofNat (c % 4 * 64 + d) :: rest) =
      symbol a :: symbol b :: symbol c :: symbol d :: encode rest := by
  have h₁ : (a * 4 + b / 16) / 4 = a := by omega
  have h₂ : (a * 4 + b / 16) % 4 * 16 + (b % 16 * 16 + c / 4) / 16 = b := by omega
  have h₃ : (b % 16 * 16 + c / 4) % 16 * 4 + (c % 4 * 64 + d) / 64 = c := by omega
  have h₄ : (c % 4 * 64 + d) % 64 = d := by omega
  rw [encode, Bytes.toNat_ofNat (by omega), Bytes.toNat_ofNat (by omega),
    Bytes.toNat_ofNat (by omega), h₁, h₂, h₃, h₄]

theorem encode_two (ha : a < 64) (hb : b < 64) (hc : c < 64) (hlast : c % 4 = 0) :
    encode [UInt8.ofNat (a * 4 + b / 16), UInt8.ofNat (b % 16 * 16 + c / 4)] =
      [symbol a, symbol b, symbol c, padding] := by
  have h₁ : (a * 4 + b / 16) / 4 = a := by omega
  have h₂ : (a * 4 + b / 16) % 4 * 16 + (b % 16 * 16 + c / 4) / 16 = b := by omega
  have h₃ : (b % 16 * 16 + c / 4) % 16 * 4 = c := by omega
  rw [encode, Bytes.toNat_ofNat (by omega), Bytes.toNat_ofNat (by omega), h₁, h₂, h₃]

theorem encode_one (ha : a < 64) (hb : b < 64) (hlast : b % 16 = 0) :
    encode [UInt8.ofNat (a * 4 + b / 16)] = [symbol a, symbol b, padding, padding] := by
  have h₁ : (a * 4 + b / 16) / 4 = a := by omega
  have h₂ : (a * 4 + b / 16) % 4 * 16 = b := by omega
  rw [encode, Bytes.toNat_ofNat (by omega), h₁, h₂]

end Groups

-- What stands in a group that was scanned: symbols, then padding.
theorem scanTail_ok {offset : Nat} {bytes : Bytes} {tail found : Tail}
    (h : scanTail offset tail bytes = .ok found) :
    ∃ added pads, bytes = added.map (·.1) ++ List.replicate pads padding ∧
      found = ⟨tail.symbols ++ added, tail.pads + pads⟩ ∧
      (∀ e ∈ added, value? e.1 = some e.2) ∧ (0 < tail.pads → added = []) := by
  induction bytes generalizing tail with
  | nil =>
    rw [scanTail, Except.ok.injEq] at h
    refine ⟨[], 0, rfl, ?_, List.forall_mem_nil _, fun _ => rfl⟩
    rw [List.append_nil, Nat.add_zero, h]
  | cons b rest ih =>
    rw [scanTail] at h
    split at h
    · rename_i hpadding
      split at h
      · exact nomatch h
      · obtain ⟨added, pads, hrest, hfound, -, hadded⟩ := ih h
        have hnil : added = [] := hadded (Nat.succ_pos _)
        subst hnil
        refine ⟨[], pads + 1, ?_, ?_, List.forall_mem_nil _, fun _ => rfl⟩
        · rw [hrest, hpadding, List.replicate_succ]
          rfl
        · rw [hfound, Nat.add_assoc, Nat.add_comm 1]
    · split at h
      · exact nomatch h
      · rename_i hpads
        split at h
        · exact nomatch h
        · rename_i v hvalue
          obtain ⟨added, pads, hrest, hfound, hvalues, -⟩ := ih h
          refine ⟨(b, v) :: added, pads, ?_, ?_, ?_, fun hpos => absurd hpos hpads⟩
          · rw [hrest, List.map_cons, List.cons_append]
          · rw [hfound, List.append_assoc, List.singleton_append]
          · intro e he
            rcases List.mem_cons.mp he with rfl | he
            · exact hvalue
            · exact hvalues e he

theorem eq_encode_of_decodeLast {offset : Nat} {group bytes : Bytes}
    (h : decodeLast offset group = .ok bytes) : group = encode bytes := by
  rw [decodeLast] at h
  split at h
  · rename_i hnil
    rw [hnil, ← Except.ok.inj h, encode]
  · cases hscan : scanTail offset ⟨[], 0⟩ group with
    | error e => rw [hscan] at h; exact nomatch h
    | ok tail =>
      obtain ⟨symbols, pads, rfl, rfl, hvalues, -⟩ := scanTail_ok hscan
      rw [hscan] at h
      simp only [List.nil_append, Nat.zero_add, bind, Except.bind] at h
      split at h
      · exact nomatch h
      · split at h
        · exact nomatch h
        · rename_i hcount
          split at h
          -- Two symbols, three, or four; the bits that are left over have to be zero.
          · rename_i x a y b
            simp only [List.forall_mem_cons, List.length_cons, List.length_nil] at hvalues hcount
            obtain ⟨hx, rfl⟩ := value?_eq_some hvalues.1
            obtain ⟨hy, rfl⟩ := value?_eq_some hvalues.2.1
            have hpads : pads = 2 := by omega
            split at h
            · rename_i hlast
              rw [← Except.ok.inj h, encode_one hx hy hlast, hpads]
              rfl
            · exact nomatch h
          · rename_i x a y b z c
            simp only [List.forall_mem_cons, List.length_cons, List.length_nil] at hvalues hcount
            obtain ⟨hx, rfl⟩ := value?_eq_some hvalues.1
            obtain ⟨hy, rfl⟩ := value?_eq_some hvalues.2.1
            obtain ⟨hz, rfl⟩ := value?_eq_some hvalues.2.2.1
            have hpads : pads = 1 := by omega
            split at h
            · rename_i hlast
              rw [← Except.ok.inj h, encode_two hx hy hz hlast, hpads]
              rfl
            · exact nomatch h
          · rename_i x a y b z c w d
            simp only [List.forall_mem_cons, List.length_cons, List.length_nil] at hvalues hcount
            obtain ⟨hx, rfl⟩ := value?_eq_some hvalues.1
            obtain ⟨hy, rfl⟩ := value?_eq_some hvalues.2.1
            obtain ⟨hz, rfl⟩ := value?_eq_some hvalues.2.2.1
            obtain ⟨hw, rfl⟩ := value?_eq_some hvalues.2.2.2.1
            have hpads : pads = 0 := by omega
            rw [← Except.ok.inj h, encode_three hx hy hz hw, hpads]
            rfl
          · exact nomatch h

theorem eq_encode_of_decodeGroups {offset : Nat} {text bytes : Bytes}
    (h : decodeGroups offset text = .ok bytes) : text = encode bytes := by
  induction offset, text using decodeGroups.induct generalizing bytes with
  | case1 offset x y z w v rest hx =>
    simp only [decodeGroups, hx] at h
    exact nomatch h
  | case2 offset x y z w v rest a hx hy =>
    simp only [decodeGroups, hx, hy] at h
    exact nomatch h
  | case3 offset x y z w v rest a b hx hy hz =>
    simp only [decodeGroups, hx, hy, hz] at h
    exact nomatch h
  | case4 offset x y z w v rest a b c hx hy hz hw =>
    simp only [decodeGroups, hx, hy, hz, hw] at h
    exact nomatch h
  | case5 offset x y z w v rest a b c d hw hz hy hx ih =>
    simp only [decodeGroups, hx, hy, hz, hw] at h
    cases hmore : decodeGroups (offset + 4) (v :: rest) with
    | error e => rw [hmore] at h; exact nomatch h
    | ok more =>
      rw [hmore] at h
      obtain ⟨ha, rfl⟩ := value?_eq_some hx
      obtain ⟨hb, rfl⟩ := value?_eq_some hy
      obtain ⟨hc, rfl⟩ := value?_eq_some hz
      obtain ⟨hd, rfl⟩ := value?_eq_some hw
      rw [← Except.ok.inj h, encode_three ha hb hc hd, ← ih hmore]
  | case6 offset group hgroup =>
    rw [decodeGroups] at h
    · exact eq_encode_of_decodeLast h
    · exact hgroup

-- Only the encoding of a byte string is read as that byte string.
theorem eq_encode_of_decode {text bytes : Bytes} (h : decode text = .ok bytes) :
    text = encode bytes := by
  rw [decode] at h
  split at h
  · split at h
    · exact nomatch h
    · exact eq_encode_of_decodeGroups h
  · rename_i hlast
    rw [List.getLast?_eq_none_iff.mp hlast, ← Except.ok.inj h, encode]

theorem scanTail_padding (offset pads : Nat) {count : Nat} {symbols : List (UInt8 × Nat)}
    (h : 0 < count → 2 ≤ symbols.length) :
    scanTail offset ⟨symbols, pads⟩ (List.replicate count padding) =
      .ok ⟨symbols, pads + count⟩ := by
  induction count generalizing pads with
  | zero => rfl
  | succ count ih =>
    have hlength := h (Nat.succ_pos count)
    rw [List.replicate_succ, scanTail, if_pos rfl, if_neg (Nat.not_lt.mpr hlength),
      ih (pads + 1) fun _ => hlength, Nat.add_assoc, Nat.add_comm 1]

-- Symbols and the padding behind them, as they are scanned.
theorem scanTail_symbols (offset count : Nat) (symbols : List (UInt8 × Nat)) {values : List Nat}
    (hvalues : ∀ v ∈ values, v < 64) (hcount : 0 < count → 2 ≤ symbols.length + values.length) :
    scanTail offset ⟨symbols, 0⟩ (values.map symbol ++ List.replicate count padding) =
      .ok ⟨symbols ++ values.map fun v => (symbol v, v), count⟩ := by
  induction values generalizing symbols with
  | nil =>
    rw [List.map_nil, List.nil_append, scanTail_padding offset 0 hcount, List.map_nil,
      List.append_nil, Nat.zero_add]
  | cons v values ih =>
    have hv := hvalues v List.mem_cons_self
    have hlength : 0 < count → 2 ≤ (symbols ++ [(symbol v, v)]).length + values.length := by
      intro hpos
      have hmore := hcount hpos
      rw [List.length_cons] at hmore
      rw [List.length_append, List.length_singleton]
      omega
    have hrest := ih (symbols ++ [(symbol v, v)])
      (fun n hn => hvalues n (List.mem_cons_of_mem _ hn)) hlength
    rw [List.map_cons, List.cons_append, scanTail, if_neg (symbol_ne_padding hv),
      if_neg (Nat.lt_irrefl 0), value?_symbol hv]
    simp only [hrest, List.append_assoc, List.singleton_append, List.map_cons]

-- The last group of an encoding: one byte, two, or three.
theorem decodeLast_one (offset : Nat) (a : UInt8) : decodeLast offset (encode [a]) = .ok [a] := by
  have ha := a.toNat_lt
  have hvalues : ∀ v ∈ [a.toNat / 4, a.toNat % 4 * 16], v < 64 := by
    simp only [List.forall_mem_cons]
    exact ⟨by omega, by omega, List.forall_mem_nil _⟩
  have hscan := scanTail_symbols offset 2 [] hvalues fun _ => Nat.le_refl 2
  have hbyte : a.toNat / 4 * 4 + a.toNat % 4 * 16 / 16 = a.toNat := by omega
  have hgroup : encode [a] = [a.toNat / 4, a.toNat % 4 * 16].map symbol
      ++ List.replicate 2 padding := rfl
  rw [hgroup, decodeLast, if_neg (by simp), hscan]
  simp only [List.nil_append, List.map_cons, List.map_nil, bind, Except.bind]
  rw [if_neg (by simp), if_neg (by simp), if_pos (by omega), hbyte, UInt8.ofNat_toNat]

theorem decodeLast_two (offset : Nat) (a b : UInt8) :
    decodeLast offset (encode [a, b]) = .ok [a, b] := by
  have ha := a.toNat_lt
  have hb := b.toNat_lt
  have hvalues : ∀ v ∈ [a.toNat / 4, a.toNat % 4 * 16 + b.toNat / 16, b.toNat % 16 * 4],
      v < 64 := by
    simp only [List.forall_mem_cons]
    exact ⟨by omega, by omega, by omega, List.forall_mem_nil _⟩
  have hscan := scanTail_symbols offset 1 [] hvalues fun _ => by simp
  have h₁ : a.toNat / 4 * 4 + (a.toNat % 4 * 16 + b.toNat / 16) / 16 = a.toNat := by omega
  have h₂ : (a.toNat % 4 * 16 + b.toNat / 16) % 16 * 16 + b.toNat % 16 * 4 / 4 = b.toNat := by omega
  have hgroup : encode [a, b] = [a.toNat / 4, a.toNat % 4 * 16 + b.toNat / 16,
      b.toNat % 16 * 4].map symbol ++ List.replicate 1 padding := rfl
  rw [hgroup, decodeLast, if_neg (by simp), hscan]
  simp only [List.nil_append, List.map_cons, List.map_nil, bind, Except.bind]
  rw [if_neg (by simp), if_neg (by simp), if_pos (by omega), h₁, h₂, UInt8.ofNat_toNat,
    UInt8.ofNat_toNat]

section Triple

variable (a b c : UInt8)

-- The digits of three bytes.
def digits : List Nat :=
  [a.toNat / 4, a.toNat % 4 * 16 + b.toNat / 16, b.toNat % 16 * 4 + c.toNat / 64, c.toNat % 64]

theorem digits_lt : ∀ v ∈ digits a b c, v < 64 := by
  have ha := a.toNat_lt
  have hb := b.toNat_lt
  have hc := c.toNat_lt
  simp only [digits, List.forall_mem_cons]
  exact ⟨by omega, by omega, by omega, by omega, List.forall_mem_nil _⟩

theorem encode_triple (rest : Bytes) :
    encode (a :: b :: c :: rest) = (digits a b c).map symbol ++ encode rest := by
  rw [encode]
  rfl

-- The three bytes that four digits make are the ones that the digits were taken from.
theorem bytes_digits :
    UInt8.ofNat (a.toNat / 4 * 4 + (a.toNat % 4 * 16 + b.toNat / 16) / 16) = a ∧
    UInt8.ofNat ((a.toNat % 4 * 16 + b.toNat / 16) % 16 * 16
      + (b.toNat % 16 * 4 + c.toNat / 64) / 4) = b ∧
    UInt8.ofNat ((b.toNat % 16 * 4 + c.toNat / 64) % 4 * 64 + c.toNat % 64) = c := by
  have ha := a.toNat_lt
  have hb := b.toNat_lt
  have hc := c.toNat_lt
  have h₁ : a.toNat / 4 * 4 + (a.toNat % 4 * 16 + b.toNat / 16) / 16 = a.toNat := by omega
  have h₂ : (a.toNat % 4 * 16 + b.toNat / 16) % 16 * 16 + (b.toNat % 16 * 4 + c.toNat / 64) / 4 =
      b.toNat := by omega
  have h₃ : (b.toNat % 16 * 4 + c.toNat / 64) % 4 * 64 + c.toNat % 64 = c.toNat := by omega
  rw [h₁, h₂, h₃]
  exact ⟨UInt8.ofNat_toNat, UInt8.ofNat_toNat, UInt8.ofNat_toNat⟩

theorem decodeLast_three (offset : Nat) : decodeLast offset (encode [a, b, c]) = .ok [a, b, c] := by
  obtain ⟨h₁, h₂, h₃⟩ := bytes_digits a b c
  have hscan := scanTail_symbols offset 0 [] (digits_lt a b c) fun h => absurd h (Nat.lt_irrefl 0)
  rw [List.replicate_zero] at hscan
  rw [encode_triple, encode, decodeLast, if_neg (by simp [digits]), hscan]
  simp only [digits, List.nil_append, List.map_cons, List.map_nil, bind, Except.bind]
  rw [if_neg (by simp), if_neg (by simp), h₁, h₂, h₃]

-- A group that is not the last one.
theorem decodeGroups_triple (offset : Nat) {text : Bytes} (h : text ≠ []) :
    decodeGroups offset ((digits a b c).map symbol ++ text) =
      (decodeGroups (offset + 4) text).map fun more => a :: b :: c :: more := by
  obtain ⟨v, rest, rfl⟩ := List.exists_cons_of_ne_nil h
  obtain ⟨h₁, h₂, h₃⟩ := bytes_digits a b c
  have hvalues := digits_lt a b c
  simp only [digits, List.forall_mem_cons] at hvalues
  simp only [digits, List.map_cons, List.map_nil, List.cons_append, List.nil_append, decodeGroups]
  rw [value?_symbol hvalues.1, value?_symbol hvalues.2.1, value?_symbol hvalues.2.2.1,
    value?_symbol hvalues.2.2.2.1]
  simp only [h₁, h₂, h₃]
  cases decodeGroups (offset + 4) (v :: rest) <;> rfl

end Triple

theorem encode_ne_nil {bytes : Bytes} (h : bytes ≠ []) : encode bytes ≠ [] := by
  match bytes with
  | [_] => simp [encode]
  | [_, _] => simp [encode]
  | _ :: _ :: _ :: _ => simp [encode]

-- Fewer than five symbols are the last group.
theorem decodeGroups_last (offset : Nat) {group : Bytes} (h : group.length < 5) :
    decodeGroups offset group = decodeLast offset group := by
  match group with
  | [] | [_] | [_, _] | [_, _, _] | [_, _, _, _] => rw [decodeGroups]; simp
  | _ :: _ :: _ :: _ :: _ :: _ => simp at h; omega

theorem decodeGroups_encode (offset : Nat) (bytes : Bytes) :
    decodeGroups offset (encode bytes) = .ok bytes := by
  induction bytes using encode.induct generalizing offset with
  | case1 => rfl
  | case2 a => rw [decodeGroups_last offset (by simp [encode]), decodeLast_one]
  | case3 a b => rw [decodeGroups_last offset (by simp [encode]), decodeLast_two]
  | case4 a b c rest ih =>
    by_cases hrest : rest = []
    · rw [hrest, decodeGroups_last offset (by simp [encode]), decodeLast_three]
    · rw [encode_triple, decodeGroups_triple a b c offset (encode_ne_nil hrest), ih, Except.map]

theorem length_encode (bytes : Bytes) : (encode bytes).length % 4 = 0 := by
  induction bytes using encode.induct with
  | case1 => rfl
  | case2 a => simp [encode]
  | case3 a b => simp [encode]
  | case4 a b c rest ih =>
    rw [encode_triple, List.length_append, List.length_map, digits]
    simp only [List.length_cons, List.length_nil]
    omega

theorem decode_encode (bytes : Bytes) : decode (encode bytes) = .ok bytes := by
  have hlength := length_encode bytes
  rw [decode]
  split
  · rw [if_neg (by omega), decodeGroups_encode]
  · rename_i hlast
    by_cases hbytes : bytes = []
    · rw [hbytes]
    · exact absurd (List.getLast?_eq_none_iff.mp hlast) (encode_ne_nil hbytes)

theorem decode_eq_ok_iff {text bytes : Bytes} : decode text = .ok bytes ↔ text = encode bytes := by
  refine ⟨eq_encode_of_decode, ?_⟩
  rintro rfl
  exact decode_encode bytes

-- An encoding has nothing but symbols and padding.
theorem mem_encode {bytes : Bytes} {b : UInt8} (h : b ∈ encode bytes) :
    b = padding ∨ ∃ v < 64, symbol v = b := by
  induction bytes using encode.induct with
  | case1 => rw [encode] at h; exact nomatch h
  | case2 a =>
    have ha := a.toNat_lt
    simp only [encode, List.mem_cons, List.not_mem_nil, or_false] at h
    rcases h with rfl | rfl | rfl | rfl
    · exact .inr ⟨_, by omega, rfl⟩
    · exact .inr ⟨_, by omega, rfl⟩
    · exact .inl rfl
    · exact .inl rfl
  | case3 a c =>
    have ha := a.toNat_lt
    have hc := c.toNat_lt
    simp only [encode, List.mem_cons, List.not_mem_nil, or_false] at h
    rcases h with rfl | rfl | rfl | rfl
    · exact .inr ⟨_, by omega, rfl⟩
    · exact .inr ⟨_, by omega, rfl⟩
    · exact .inr ⟨_, by omega, rfl⟩
    · exact .inl rfl
  | case4 a c d rest ih =>
    rw [encode_triple, List.mem_append, List.mem_map] at h
    rcases h with ⟨v, hv, hb⟩ | h
    · exact .inr ⟨v, digits_lt a c d v hv, hb⟩
    · exact ih h

theorem visible_of_mem_encode {bytes : Bytes} {b : UInt8} (h : b ∈ encode bytes) :
    0x20 ≤ b.toNat ∧ b.toNat < 0x7F := by
  have hsymbol : ∀ n < 64, 0x20 ≤ (symbol n).toNat ∧ (symbol n).toNat < 0x7F := by decide
  rcases mem_encode h with rfl | ⟨v, hv, rfl⟩
  · decide
  · exact hsymbol v hv

theorem mem_encodeText {bytes : Bytes} {c : Char} (h : c ∈ (encodeText bytes).toList) :
    0x20 ≤ c.toNat ∧ c.toNat < 0x7F := by
  rw [encodeText, String.toList_ofList, List.mem_map] at h
  obtain ⟨b, hb, rfl⟩ := h
  have hvisible := visible_of_mem_encode hb
  rw [Text.toNat_charOfNat, if_pos (.inl (by omega))]
  exact hvisible

theorem utf8_encodeText (bytes : Bytes) : Text.utf8 (encodeText bytes) = encode bytes := by
  have hchar : ∀ b ∈ encode bytes, String.utf8EncodeChar (Char.ofNat b.toNat) = [b] := by
    intro b hb
    have hvisible := visible_of_mem_encode hb
    have hcode : (Char.ofNat b.toNat).toNat = b.toNat := by
      rw [Text.toNat_charOfNat, if_pos (.inl (by omega))]
    rw [Text.Utf8.encode_one (by omega), hcode, UInt8.ofNat_toNat]
  rw [encodeText, Text.utf8_ofList, List.flatMap_map]
  generalize encode bytes = text at hchar
  induction text with
  | nil => rfl
  | cons b rest ih =>
    rw [List.flatMap_cons, hchar b List.mem_cons_self,
      ih fun x hx => hchar x (List.mem_cons_of_mem _ hx), List.singleton_append]

-- The texts that can be read as some bytes: only what these bytes are written as.
theorem decode_utf8_iff {s : String} {bytes : Bytes} :
    decode (Text.utf8 s) = .ok bytes ↔ s = encodeText bytes := by
  rw [decode_eq_ok_iff, ← utf8_encodeText]
  exact ⟨Text.utf8_injective, congrArg Text.utf8⟩

-- Such a text can stand in a header, and be read from one.
theorem isText_encodeText (bytes : Bytes) : Http.Headers.isText (encodeText bytes) = true := by
  refine List.all_eq_true.mpr fun c hc => ?_
  have hvisible := mem_encodeText hc
  simp only [Bool.or_eq_true, Bool.and_eq_true, decide_eq_true_eq]
  exact .inr ⟨hvisible.1, by omega⟩

theorem isSendable_encodeText (bytes : Bytes) :
    Http.Headers.isSendable (encodeText bytes) = true := by
  refine List.all_eq_true.mpr fun c hc => ?_
  have hvisible := mem_encodeText hc
  simp only [Bool.or_eq_true, Bool.and_eq_true, decide_eq_true_eq]
  exact .inr ⟨hvisible.1, by omega⟩

end BlobStorage.Base64
