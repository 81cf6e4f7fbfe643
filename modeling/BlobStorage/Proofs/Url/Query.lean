import BlobStorage.Proofs.Text.Split
import BlobStorage.Proofs.Url.Percent
import BlobStorage.Url.Query

-- Pairs that were form-encoded behind a query read back, and leave what was in front of them alone.
namespace BlobStorage.Url.Query

def isWritten (c : Char) : Bool := isPlain c || c == '+' || c == '%'

theorem mem_encodePart {s : String} {c : Char} (h : c ∈ encodePart s) : isWritten c = true := by
  rw [encodePart, List.mem_flatMap] at h
  obtain ⟨d, -, hc⟩ := h
  unfold encodeChar at hc
  split at hc
  · rename_i hplain
    rw [List.mem_singleton.mp hc]
    simp only [isWritten, hplain, Bool.true_or]
  · split at hc
    · rw [List.mem_singleton.mp hc]
      rfl
    · exact Percent.forall_mem_escapeChar (p := (isWritten · = true)) (by decide) hc

theorem isWritten_ascii {c : Char} (h : isWritten c = true) : c.toNat < 128 := by
  simp only [isWritten, isPlain, Bool.or_eq_true, Bool.and_eq_true, decide_eq_true_eq,
    beq_iff_eq] at h
  rcases h with (((((((h | h) | h) | rfl) | rfl) | rfl) | rfl) | rfl) | rfl
  · omega
  · omega
  · omega
  all_goals decide

theorem isWritten_visible (special : Bool) {c : Char} (h : isWritten c = true) :
    0x20 < c.toNat ∧ c ≠ '#' ∧ c ≠ '&' ∧ c ≠ '=' ∧ Percent.inQuery special c = false := by
  have hall : ∀ c : Char, c.toNat < 128 → isWritten c = true →
      0x20 < c.toNat ∧ c ≠ '#' ∧ c ≠ '&' ∧ c ≠ '=' ∧ Percent.inQuery special c = false :=
    Text.forall_ascii (by cases special <;> decide)
  exact hall c (isWritten_ascii h) h

section Part

-- A plus sign is read as a blank.
def unplus (b : UInt8) : UInt8 := if b.toNat = 43 then 32 else b

theorem unplus_escapeByte (b : UInt8) :
    ((Percent.escapeByte b).flatMap String.utf8EncodeChar).map unplus =
      (Percent.escapeByte b).flatMap String.utf8EncodeChar := by
  have hdigit : ∀ n < 16, unplus (UInt8.ofNat (Percent.upperHexDigit n).toNat) =
      UInt8.ofNat (Percent.upperHexDigit n).toNat := by decide
  have hb := b.toNat_lt
  rw [Percent.escapeByte_bytes]
  simp only [List.map_cons, List.map_nil, hdigit _ (by omega : b.toNat / 16 < 16),
    hdigit _ (by omega : b.toNat % 16 < 16)]
  rfl

theorem unplus_escapeChar (c : Char) :
    ((Percent.escapeChar c).flatMap String.utf8EncodeChar).map unplus =
      (Percent.escapeChar c).flatMap String.utf8EncodeChar := by
  rw [Percent.escapeChar]
  induction String.utf8EncodeChar c with
  | nil => rfl
  | cons b bytes ih =>
    rw [List.flatMap_cons, List.flatMap_append, List.map_append, ih, unplus_escapeByte]

theorem decode_encodeChar (c : Char) (rest : Bytes) :
    Percent.decode (((encodeChar c).flatMap String.utf8EncodeChar).map unplus ++ rest) =
      String.utf8EncodeChar c ++ Percent.decode rest := by
  unfold encodeChar
  split
  · rename_i hplain
    have hall : ∀ c : Char, c.toNat < 128 → isPlain c = true →
        unplus (UInt8.ofNat c.toNat) = UInt8.ofNat c.toNat ∧ (UInt8.ofNat c.toNat).toNat ≠ 37 :=
      Text.forall_ascii (by decide)
    have hascii : c.toNat < 128 := isWritten_ascii (by simp only [isWritten, hplain, Bool.true_or])
    obtain ⟨hunplus, hpercent⟩ := hall c hascii hplain
    rw [List.flatMap_singleton, Text.Utf8.encode_one hascii, List.map_singleton, hunplus,
      List.singleton_append, Percent.decode_cons hpercent, List.singleton_append]
  · split
    · rename_i hblank
      subst hblank
      exact Percent.decode_cons (by decide) rest
    · rw [unplus_escapeChar, Percent.decode_escapeChar]

theorem decodePart_encodePart (s : String) :
    decodePart ((encodePart s).flatMap String.utf8EncodeChar) = s := by
  have hdecode : ∀ cs : List Char, Percent.decode
      (((cs.flatMap encodeChar).flatMap String.utf8EncodeChar).map unplus) =
        cs.flatMap String.utf8EncodeChar := by
    intro cs
    induction cs with
    | nil => rfl
    | cons c cs ih =>
      rw [List.flatMap_cons, List.flatMap_append, List.map_append, decode_encodeChar, ih,
        List.flatMap_cons]
  show Text.ofUtf8Lossy (Percent.decode (((encodePart s).flatMap _).map unplus)) = s
  rw [encodePart, hdecode, ← Text.utf8, Text.ofUtf8Lossy_utf8]

end Part

theorem byte_not_mem_encodePart (s : String) {d : Char} (hd : d.toNat < 128)
    (h : isWritten d = false) :
    UInt8.ofNat d.toNat ∉ (encodePart s).flatMap String.utf8EncodeChar := by
  apply Text.byte_not_mem hd
  intro c hc
  have hwritten := mem_encodePart hc
  refine ⟨isWritten_ascii hwritten, ?_⟩
  rintro rfl
  rw [h] at hwritten
  exact nomatch hwritten

-- The bytes of a pair, with the mark between name and value.
theorem encodePair_bytes (pair : String × String) :
    (encodePair pair).flatMap String.utf8EncodeChar =
      (encodePart pair.1).flatMap String.utf8EncodeChar ++
        61 :: (encodePart pair.2).flatMap String.utf8EncodeChar := by
  rw [encodePair, List.flatMap_append, List.flatMap_append, List.append_assoc]
  rfl

theorem decodePair_encodePair (pair : String × String) :
    decodePair ((encodePair pair).flatMap String.utf8EncodeChar) = pair := by
  have hname : ∀ b ∈ (encodePart pair.1).flatMap String.utf8EncodeChar, decide (b ≠ 61) = true := by
    intro b hb
    rw [decide_eq_true_iff]
    rintro rfl
    exact byte_not_mem_encodePart pair.1 (d := '=') (by decide) (by decide) hb
  rw [decodePair, encodePair_bytes, Text.takeWhile_boundary hname (by simp),
    Text.dropWhile_boundary hname (by simp), List.drop_succ_cons, List.drop_zero,
    decodePart_encodePart, decodePart_encodePart]

theorem ampersand_not_mem_encodePair (pair : String × String) :
    ∀ b ∈ (encodePair pair).flatMap String.utf8EncodeChar, (b == 38) = false := by
  intro b hb
  rw [encodePair_bytes, List.mem_append, List.mem_cons] at hb
  rw [beq_eq_false_iff_ne]
  rintro rfl
  rcases hb with hb | hb | hb
  · exact byte_not_mem_encodePart pair.1 (d := '&') (by decide) (by decide) hb
  · exact absurd hb (by decide)
  · exact byte_not_mem_encodePart pair.2 (d := '&') (by decide) (by decide) hb

-- One more pair behind any query.
theorem decode_appendPair (query : List Char) (pair : String × String) :
    decode (String.ofList (appendPair query pair)) = decode (String.ofList query) ++ [pair] := by
  have hpair : ((encodePair pair).flatMap String.utf8EncodeChar) ≠ [] := by
    rw [encodePair_bytes]
    exact List.append_ne_nil_of_right_ne_nil _ (List.cons_ne_nil _ _)
  have hsplit : ((encodePair pair).flatMap String.utf8EncodeChar).splitOnP (· == 38) =
      [(encodePair pair).flatMap String.utf8EncodeChar] :=
    List.splitOnP_eq_singleton (ampersand_not_mem_encodePair pair)
  simp only [decode, Text.utf8_ofList, Text.splitOn_eq_splitOnP, appendPair]
  by_cases hquery : query = []
  · subst hquery
    simp [hsplit, hpair, decodePair_encodePair]
  · have hmark : ['&'].flatMap String.utf8EncodeChar = [38] := by decide
    rw [if_neg hquery, List.flatMap_append, List.flatMap_append, hmark, List.append_assoc,
      List.singleton_append, List.splitOnP_append_cons _ _ (by decide), hsplit]
    simp [hpair, decodePair_encodePair]

theorem decode_appendPairs (query : List Char) (pairs : List (String × String)) :
    decode (String.ofList (appendPairs query pairs)) = decode (String.ofList query) ++ pairs := by
  induction pairs generalizing query with
  | nil => exact (List.append_nil _).symm
  | cons pair pairs ih =>
    rw [appendPairs, List.foldl_cons, ← appendPairs, ih, decode_appendPair, List.append_assoc,
      List.singleton_append]

-- What holds of the marks and of everything that form encoding writes holds of a whole query.
theorem forall_mem_appendPairs {p : Char → Prop} (hmarks : p '&' ∧ p '=')
    (hwritten : ∀ c, isWritten c = true → p c) {query : List Char} (hquery : ∀ c ∈ query, p c)
    (pairs : List (String × String)) {c : Char} (h : c ∈ appendPairs query pairs) : p c := by
  induction pairs generalizing query with
  | nil => exact hquery c h
  | cons pair pairs ih =>
    refine ih ?_ h
    intro d hd
    simp only [appendPair, encodePair, List.mem_append, List.mem_singleton] at hd
    rcases hd with (hd | hd) | (hd | rfl) | hd
    · exact hquery d hd
    · split at hd
      · exact absurd hd List.not_mem_nil
      · rw [List.mem_singleton.mp hd]
        exact hmarks.1
    · exact hwritten d (mem_encodePart hd)
    · exact hmarks.2
    · exact hwritten d (mem_encodePart hd)

end BlobStorage.Url.Query
