import BlobStorage.Proofs.Text.Utf8
import BlobStorage.Url.Percent

-- What was percent-encoded reads back.
namespace BlobStorage.Url.Percent

theorem upperHexDigit_ascii {n : Nat} (h : n < 16) : (upperHexDigit n).toNat < 0x80 := by
  have hall : ∀ n < 16, (upperHexDigit n).toNat < 0x80 := by decide
  exact hall n h

theorem hexValue?_upperHexDigit {n : Nat} (h : n < 16) :
    Bytes.hexValue? (UInt8.ofNat (upperHexDigit n).toNat) = some n := by
  have hall : ∀ n < 16, Bytes.hexValue? (UInt8.ofNat (upperHexDigit n).toNat) = some n := by decide
  exact hall n h

-- The three bytes of an escape.
theorem escapeByte_bytes (b : UInt8) :
    (escapeByte b).flatMap String.utf8EncodeChar =
      [37, UInt8.ofNat (upperHexDigit (b.toNat / 16)).toNat,
        UInt8.ofNat (upperHexDigit (b.toNat % 16)).toNat] := by
  have hb := b.toNat_lt
  rw [escapeByte, List.flatMap_cons, List.flatMap_cons, List.flatMap_cons, List.flatMap_nil,
    Text.Utf8.encode_one (by decide), Text.Utf8.encode_one (upperHexDigit_ascii (by omega)),
    Text.Utf8.encode_one (upperHexDigit_ascii (by omega))]
  rfl

theorem decode_cons {b : UInt8} (h : b.toNat ≠ 37) (rest : Bytes) :
    decode (b :: rest) = b :: decode rest := by
  match rest with
  | [] => rfl
  | [_] => rfl
  | _ :: _ :: _ => rw [decode, if_neg h]

theorem decode_of_not_mem {bytes : Bytes} (h : 37 ∉ bytes) : decode bytes = bytes := by
  induction bytes with
  | nil => rfl
  | cons b bytes ih =>
    have hb : b.toNat ≠ 37 := by
      intro hb
      have heq : b = 37 := UInt8.toNat_inj.mp hb
      exact h (heq ▸ List.mem_cons_self)
    rw [decode_cons hb, ih fun hmem => h (List.mem_cons_of_mem _ hmem)]

theorem decode_escapeByte (b : UInt8) (rest : Bytes) :
    decode ((escapeByte b).flatMap String.utf8EncodeChar ++ rest) = b :: decode rest := by
  have hb := b.toNat_lt
  have hvalue : 16 * (b.toNat / 16) + b.toNat % 16 = b.toNat := by omega
  rw [escapeByte_bytes]
  simp only [List.cons_append, List.nil_append]
  rw [decode, if_pos (by decide), hexValue?_upperHexDigit (by omega),
    hexValue?_upperHexDigit (by omega)]
  simp only [hvalue, UInt8.ofNat_toNat]

theorem decode_escapeChar (c : Char) (rest : Bytes) :
    decode ((escapeChar c).flatMap String.utf8EncodeChar ++ rest) =
      String.utf8EncodeChar c ++ decode rest := by
  rw [escapeChar]
  induction String.utf8EncodeChar c with
  | nil => rfl
  | cons b bytes ih =>
    rw [List.flatMap_cons, List.flatMap_append, List.append_assoc, decode_escapeByte, ih,
      List.cons_append]

-- What escapes and characters that stay have in common, an encoded text has throughout.
section Characters

variable {p : Char → Prop} (hescape : p '%' ∧ ∀ n < 16, p (upperHexDigit n))
include hescape

theorem forall_mem_escapeChar {c d : Char} (h : c ∈ escapeChar d) : p c := by
  rw [escapeChar, List.mem_flatMap] at h
  obtain ⟨b, -, hc⟩ := h
  have hb := b.toNat_lt
  simp only [escapeByte, List.mem_cons, List.not_mem_nil, or_false] at hc
  rcases hc with rfl | rfl | rfl
  · exact hescape.1
  · exact hescape.2 _ (by omega)
  · exact hescape.2 _ (by omega)

theorem forall_mem_encode {escaped : Char → Bool} {cs : List Char}
    (hplain : ∀ c ∈ cs, escaped c = false → p c) {c : Char} (h : c ∈ encode escaped cs) : p c := by
  rw [encode, List.mem_flatMap] at h
  obtain ⟨d, hmem, hc⟩ := h
  split at hc
  · exact forall_mem_escapeChar hescape hc
  · rename_i hd
    rw [List.mem_singleton.mp hc]
    exact hplain d hmem (Bool.eq_false_iff.mpr hd)

-- Only ASCII characters stay where controls are escaped.
theorem forall_mem_encode_ascii {escaped : Char → Bool}
    (hcontrol : ∀ c, isControl c = true → escaped c = true)
    (hascii : ∀ c : Char, c.toNat < 128 → escaped c = false → p c) (cs : List Char) :
    ∀ c ∈ encode escaped cs, p c := by
  intro c hc
  refine forall_mem_encode hescape (fun d _ hd => ?_) hc
  have hplain : ¬isControl d = true := by
    intro hbad
    rw [hcontrol d hbad] at hd
    exact nomatch hd
  simp only [isControl, Bool.or_eq_true, decide_eq_true_eq] at hplain
  exact hascii d (by omega) hd

end Characters

theorem encode_of_plain {escaped : Char → Bool} {cs : List Char}
    (h : ∀ c ∈ cs, escaped c = false) : encode escaped cs = cs := by
  induction cs with
  | nil => rfl
  | cons c cs ih =>
    have hc := h c List.mem_cons_self
    have hrest := ih fun d hd => h d (List.mem_cons_of_mem _ hd)
    rw [encode, List.flatMap_cons, ← encode, hrest, hc]
    rfl

-- A set of characters to escape has to hold the percent sign for that, and everything outside ASCII.
structure Sound (escaped : Char → Bool) : Prop where
  percent : escaped '%' = true
  control : ∀ c, isControl c = true → escaped c = true

theorem decode_encode {escaped : Char → Bool} (hsound : Sound escaped) (cs : List Char)
    (rest : Bytes) :
    decode ((encode escaped cs).flatMap String.utf8EncodeChar ++ rest) =
      cs.flatMap String.utf8EncodeChar ++ decode rest := by
  induction cs with
  | nil => rfl
  | cons c cs ih =>
    rw [encode, List.flatMap_cons, List.flatMap_append, List.append_assoc, ← encode]
    split
    · rw [decode_escapeChar, ih, List.flatMap_cons, List.append_assoc]
    · rename_i hc
      have hascii : c.toNat < 0x80 := by
        have hcontrol : ¬isControl c = true := fun h => hc (hsound.control c h)
        simp only [isControl, Bool.or_eq_true, decide_eq_true_eq] at hcontrol
        omega
      have hpercent : (UInt8.ofNat c.toNat).toNat ≠ 37 := by
        rw [Bytes.toNat_ofNat (by omega)]
        intro h
        have hc' : c = '%' := Char.toNat_inj.mp h
        exact hc (hc' ▸ hsound.percent)
      rw [List.flatMap_cons, List.flatMap_nil, List.append_nil, Text.Utf8.encode_one hascii,
        List.singleton_append, decode_cons hpercent, ih, List.flatMap_cons,
        Text.Utf8.encode_one hascii, List.append_assoc, List.singleton_append]

-- The text that an encoded text stands for, if its bytes are UTF-8.
def decodeText? (s : String) : Option String := Text.ofUtf8? (decode (Text.utf8 s))

theorem decodeText?_encode {escaped : Char → Bool} (hsound : Sound escaped) (cs : List Char) :
    decodeText? (String.ofList (encode escaped cs)) = some (String.ofList cs) := by
  have hdecode := decode_encode hsound cs []
  rw [List.append_nil, decode, List.append_nil] at hdecode
  rw [decodeText?, Text.utf8_ofList, hdecode, ← Text.utf8_ofList, Text.ofUtf8?_utf8]

end BlobStorage.Url.Percent
