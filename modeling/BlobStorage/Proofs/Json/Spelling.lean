import BlobStorage.Json.Value
import BlobStorage.Proofs.Text.Split
import BlobStorage.Proofs.Text.Utf8

-- The ways to spell a string or a number in a document. Each is read as what was spelled, and a string
-- is passed over up to its end, whatever follows.
namespace BlobStorage.Json

open Bytes (toNat_ofNat)

-- A hexadecimal digit, of either case from ten on.
inductive HexDigit : Nat → UInt8 → Prop
  | decimal {v : Nat} (h : v < 10) : HexDigit v (UInt8.ofNat (48 + v))
  | upper {v : Nat} (hlow : 10 ≤ v) (hhigh : v < 16) : HexDigit v (UInt8.ofNat (55 + v))
  | lower {v : Nat} (hlow : 10 ≤ v) (hhigh : v < 16) : HexDigit v (UInt8.ofNat (87 + v))

-- Four of them, most significant first.
inductive FourDigits : Nat → Bytes → Prop
  | mk {v w x y : Nat} {a b c d : UInt8} (ha : HexDigit v a) (hb : HexDigit w b) (hc : HexDigit x c)
      (hd : HexDigit y d) : FourDigits (((v * 16 + w) * 16 + x) * 16 + y) [a, b, c, d]

-- The letters that stand behind a backslash, with the characters that they mean.
def shortEscapes : List (Char × Char) :=
  [('"', '"'), ('\\', '\\'), ('/', '/'), ('b', '\x08'), ('f', '\x0c'), ('n', '\n'), ('r', '\r'),
    ('t', '\t')]

-- The spellings of a character: itself, unless it is a control character or has a meaning of its own; a
-- letter or four digits behind a backslash; above the first 65536, two groups of four digits.
inductive Spells : Char → Bytes → Prop
  | plain {c : Char} (hcontrol : 0x20 ≤ c.toNat) (hquote : c ≠ '"') (hbackslash : c ≠ '\\') :
      Spells c (String.utf8EncodeChar c)
  | short {letter c : Char} (h : (letter, c) ∈ shortEscapes) : Spells c [92, UInt8.ofNat letter.toNat]
  | digits {c : Char} {digits : Bytes} (h : FourDigits c.toNat digits) : Spells c (92 :: 117 :: digits)
  | pair {c : Char} {first second : Nat} {digits more : Bytes}
      (hfirst : 0xD800 ≤ first ∧ first ≤ 0xDBFF) (hsecond : 0xDC00 ≤ second ∧ second ≤ 0xDFFF)
      (hc : c.toNat = 0x10000 + (first - 0xD800) * 0x400 + (second - 0xDC00))
      (hdigits : FourDigits first digits) (hmore : FourDigits second more) :
      Spells c (92 :: 117 :: (digits ++ 92 :: 117 :: more))

inductive SpellsAll : List Char → Bytes → Prop
  | nil : SpellsAll [] []
  | cons {c : Char} {cs : List Char} {bytes rest : Bytes} (h : Spells c bytes)
      (hmore : SpellsAll cs rest) : SpellsAll (c :: cs) (bytes ++ rest)

-- A string between quotation marks.
inductive Quoted (s : String) : Bytes → Prop
  | mk {body : Bytes} (h : SpellsAll s.toList body) : Quoted s (34 :: (body ++ [34]))

section Digits

variable {v unit : Nat} {b : UInt8} {digits rest : Bytes}

theorem HexDigit.hexValue? (h : HexDigit v b) : Bytes.hexValue? b = some v := by
  cases h with
  | decimal h =>
    rw [Bytes.hexValue?, toNat_ofNat (by omega), if_pos (by omega), Nat.add_sub_cancel_left]
  | upper hlow hhigh =>
    rw [Bytes.hexValue?, toNat_ofNat (by omega), if_neg (by omega), if_pos (by omega),
      Nat.add_sub_cancel_left]
  | lower hlow hhigh =>
    rw [Bytes.hexValue?, toNat_ofNat (by omega), if_neg (by omega), if_neg (by omega),
      if_pos (by omega), Nat.add_sub_cancel_left]

theorem exists_hexDigit (h : v < 16) : ∃ b, HexDigit v b := by
  by_cases hdecimal : v < 10
  · exact ⟨_, .decimal hdecimal⟩
  · exact ⟨_, .lower (by omega) h⟩

theorem exists_fourDigits {n : Nat} (h : n < 0x10000) : ∃ digits, FourDigits n digits := by
  obtain ⟨a, ha⟩ := exists_hexDigit (v := n / 4096) (by omega)
  obtain ⟨b, hb⟩ := exists_hexDigit (v := n / 256 % 16) (by omega)
  obtain ⟨c, hc⟩ := exists_hexDigit (v := n / 16 % 16) (by omega)
  obtain ⟨d, hd⟩ := exists_hexDigit (v := n % 16) (by omega)
  have hn : ((n / 4096 * 16 + n / 256 % 16) * 16 + n / 16 % 16) * 16 + n % 16 = n := by omega
  exact ⟨_, hn ▸ FourDigits.mk ha hb hc hd⟩

theorem hexUnit_digits (h : FourDigits unit digits) (rest : Bytes) :
    hexUnit (digits ++ rest) = .ok (unit, rest) := by
  cases h with
  | @mk v w x y a b c d ha hb hc hd =>
    have hdigits : [a, b, c, d].mapM Bytes.hexValue? = some [v, w, x, y] := by
      simp only [List.mapM_cons, List.mapM_nil, ha.hexValue?, hb.hexValue?, hc.hexValue?,
        hd.hexValue?]
      rfl
    have hvalue : [v, w, x, y].foldl (fun n v => 16 * n + v) 0 =
        ((v * 16 + w) * 16 + x) * 16 + y := by
      simp only [List.foldl_cons, List.foldl_nil]
      omega
    simp only [List.cons_append, List.nil_append, hexUnit, hdigits, hvalue]

end Digits

section Characters

variable {c : Char} {bytes rest : Bytes}

theorem unicodeEscape_digits (h : FourDigits c.toNat bytes) (rest : Bytes) :
    unicodeEscape (bytes ++ rest) = .ok (c, rest) := by
  have hscalar := Text.Utf8.scalar_bounds c
  have htrailing : isTrailing c.toNat = false := by
    simp only [isTrailing, Bool.and_eq_false_iff, decide_eq_false_iff_not]
    omega
  have hleading : isLeading c.toNat = false := by
    simp only [isLeading, Bool.and_eq_false_iff, decide_eq_false_iff_not]
    omega
  rw [unicodeEscape, hexUnit_digits h]
  simp only [bind, Except.bind, htrailing, hleading, Bool.false_eq_true, if_false, Char.ofNat_toNat]

theorem unicodeEscape_pair {first second : Nat} {digits more : Bytes}
    (hfirst : 0xD800 ≤ first ∧ first ≤ 0xDBFF) (hsecond : 0xDC00 ≤ second ∧ second ≤ 0xDFFF)
    (hc : c.toNat = 0x10000 + (first - 0xD800) * 0x400 + (second - 0xDC00))
    (hdigits : FourDigits first digits) (hmore : FourDigits second more) (rest : Bytes) :
    unicodeEscape (digits ++ 92 :: 117 :: (more ++ rest)) = .ok (c, rest) := by
  have htrailing : isTrailing first = false := by
    simp only [isTrailing, Bool.and_eq_false_iff, decide_eq_false_iff_not]
    omega
  have hleading : isLeading first = true := by
    simp only [isLeading, Bool.and_eq_true, decide_eq_true_eq]
    omega
  have htrailing' : isTrailing second = true := by
    simp only [isTrailing, Bool.and_eq_true, decide_eq_true_eq]
    omega
  have hunit : trailingUnit (92 :: 117 :: (more ++ rest)) = .ok (second, rest) := by
    simp only [trailingUnit, hexUnit_digits hmore, bind, Except.bind, htrailing', if_true]
  have hvalue : (first - 0xD800) * 1024 + (second - 0xDC00) + 0x10000 = c.toNat := by omega
  rw [unicodeEscape, hexUnit_digits hdigits]
  simp only [bind, Except.bind, htrailing, hleading, hunit, hvalue, Bool.false_eq_true, if_false,
    if_true, Char.ofNat_toNat]

-- The bytes that stand for themselves.
def IsPlain (b : UInt8) : Prop := b ≠ 34 ∧ b ≠ 92 ∧ 0x20 ≤ b.toNat

theorem isPlain_ofNat {n : Nat} (hhigh : n < 256) (hlow : 0x20 ≤ n) (hquote : n ≠ 34)
    (hbackslash : n ≠ 92) : IsPlain (UInt8.ofNat n) := by
  have hne : ∀ m < 256, n ≠ m → UInt8.ofNat n ≠ UInt8.ofNat m := by
    intro m hm hnm heq
    have hnat := congrArg UInt8.toNat heq
    rw [toNat_ofNat hhigh, toNat_ofNat hm] at hnat
    exact hnm hnat
  exact ⟨hne 34 (by decide) hquote, hne 92 (by decide) hbackslash, by rwa [toNat_ofNat hhigh]⟩

-- All bytes of a character that stands for itself do so.
theorem isPlain_of_mem_encode (hcontrol : 0x20 ≤ c.toNat) (hquote : c ≠ '"') (hbackslash : c ≠ '\\') :
    ∀ b ∈ String.utf8EncodeChar c, IsPlain b := by
  have hscalar := Text.Utf8.scalar_bounds c
  have hhigh : ∀ n, 0x80 ≤ n → n < 256 → IsPlain (UInt8.ofNat n) := fun n hlow hhigh =>
    isPlain_ofNat hhigh (by omega) (by omega) (by omega)
  by_cases h1 : c.toNat < 0x80
  · have hquote' : c.toNat ≠ 34 := fun h => hquote (Char.toNat_inj.mp h)
    have hbackslash' : c.toNat ≠ 92 := fun h => hbackslash (Char.toNat_inj.mp h)
    rw [Text.Utf8.encode_one h1, List.forall_mem_singleton]
    exact isPlain_ofNat (by omega) hcontrol hquote' hbackslash'
  by_cases h2 : c.toNat < 0x800
  · rw [Text.Utf8.encode_two (by omega) h2, List.forall_mem_cons, List.forall_mem_singleton]
    exact ⟨hhigh _ (by omega) (by omega), hhigh _ (by omega) (by omega)⟩
  by_cases h3 : c.toNat < 0x10000
  · rw [Text.Utf8.encode_three (by omega) h3, List.forall_mem_cons, List.forall_mem_cons,
      List.forall_mem_singleton]
    exact ⟨hhigh _ (by omega) (by omega), hhigh _ (by omega) (by omega),
      hhigh _ (by omega) (by omega)⟩
  · rw [Text.Utf8.encode_four (by omega), List.forall_mem_cons, List.forall_mem_cons,
      List.forall_mem_cons, List.forall_mem_singleton]
    exact ⟨hhigh _ (by omega) (by omega), hhigh _ (by omega) (by omega),
      hhigh _ (by omega) (by omega), hhigh _ (by omega) (by omega)⟩

theorem stringBytes_plain (h : ∀ b ∈ bytes, IsPlain b) (read rest : Bytes) :
    stringBytes read (bytes ++ rest) = stringBytes (bytes.reverse ++ read) rest := by
  induction bytes generalizing read with
  | nil => rfl
  | cons b bytes ih =>
    obtain ⟨hquote, hbackslash, hcontrol⟩ := h b List.mem_cons_self
    rw [List.cons_append, stringBytes, if_neg hquote, if_neg hbackslash,
      if_neg (Nat.not_lt_of_le hcontrol), ih fun d hd => h d (List.mem_cons_of_mem _ hd),
      List.reverse_cons, List.append_assoc, List.singleton_append]

theorem skipString_plain (h : ∀ b ∈ bytes, IsPlain b) (rest : Bytes) :
    skipString (bytes ++ rest) = skipString rest := by
  induction bytes with
  | nil => rfl
  | cons b bytes ih =>
    obtain ⟨hquote, hbackslash, hcontrol⟩ := h b List.mem_cons_self
    rw [List.cons_append, skipString, if_neg hquote, if_neg hbackslash,
      if_neg (Nat.not_lt_of_le hcontrol), ih fun d hd => h d (List.mem_cons_of_mem _ hd)]

-- One escape is read, and what is behind it comes next.
theorem stringBytes_escape {piece : Bytes} (h : escape bytes = .ok (piece, rest)) (read : Bytes) :
    stringBytes read (92 :: bytes) = stringBytes (piece.reverse ++ read) rest := by
  rw [stringBytes, if_neg (by decide), if_pos rfl]
  generalize escape bytes = step at h ⊢
  subst h
  rfl

theorem skipString_escape (h : skipEscape bytes = .ok rest) :
    skipString (92 :: bytes) = skipString rest := by
  rw [skipString, if_neg (by decide), if_pos rfl]
  generalize skipEscape bytes = step at h ⊢
  subst h
  rfl

theorem shortEscape?_of_mem {letter : Char} (h : (letter, c) ∈ shortEscapes) :
    UInt8.ofNat letter.toNat ≠ 117 ∧
      shortEscape? (UInt8.ofNat letter.toNat) = some (UInt8.ofNat c.toNat) ∧ c.toNat < 0x80 := by
  have hall : ∀ entry ∈ shortEscapes, UInt8.ofNat entry.1.toNat ≠ 117 ∧
      shortEscape? (UInt8.ofNat entry.1.toNat) = some (UInt8.ofNat entry.2.toNat) ∧
      entry.2.toNat < 0x80 := by decide
  exact hall _ h

-- Every spelling of a character is read as its bytes.
theorem stringBytes_spells (h : Spells c bytes) (read rest : Bytes) :
    stringBytes read (bytes ++ rest) =
      stringBytes ((String.utf8EncodeChar c).reverse ++ read) rest := by
  cases h with
  | plain hcontrol hquote hbackslash =>
    exact stringBytes_plain (isPlain_of_mem_encode hcontrol hquote hbackslash) read rest
  | @short letter _ h =>
    obtain ⟨hne, hshort, hascii⟩ := shortEscape?_of_mem h
    have hescape : escape (UInt8.ofNat letter.toNat :: rest) = .ok (String.utf8EncodeChar c, rest) := by
      rw [escape, if_neg hne, hshort, Text.Utf8.encode_one hascii]
    exact stringBytes_escape hescape read
  | @digits _ digits h =>
    have hescape : escape (117 :: (digits ++ rest)) = .ok (String.utf8EncodeChar c, rest) := by
      rw [escape, if_pos rfl, unicodeEscape_digits h]
      rfl
    exact stringBytes_escape hescape read
  | @pair _ first second digits more hfirst hsecond hc hdigits hmore =>
    have hescape : escape (117 :: (digits ++ 92 :: 117 :: (more ++ rest))) =
        .ok (String.utf8EncodeChar c, rest) := by
      rw [escape, if_pos rfl, unicodeEscape_pair hfirst hsecond hc hdigits hmore]
      rfl
    have hsplit : 92 :: 117 :: (digits ++ 92 :: 117 :: more) ++ rest =
        92 :: 117 :: (digits ++ 92 :: 117 :: (more ++ rest)) := by simp
    rw [hsplit]
    exact stringBytes_escape hescape read

theorem skipEscape_digits {unit : Nat} (h : FourDigits unit bytes) (rest : Bytes) :
    skipEscape (117 :: (bytes ++ rest)) = .ok rest := by
  rw [skipEscape, if_pos rfl, hexUnit_digits h]
  rfl

theorem skipString_spells (h : Spells c bytes) (rest : Bytes) :
    skipString (bytes ++ rest) = skipString rest := by
  cases h with
  | plain hcontrol hquote hbackslash =>
    exact skipString_plain (isPlain_of_mem_encode hcontrol hquote hbackslash) rest
  | @short letter _ h =>
    obtain ⟨hne, hshort, -⟩ := shortEscape?_of_mem h
    have hescape : skipEscape (UInt8.ofNat letter.toNat :: rest) = .ok rest := by
      rw [skipEscape, if_neg hne, hshort, if_pos Option.isSome_some]
    exact skipString_escape hescape
  | digits h => exact skipString_escape (skipEscape_digits h rest)
  | @pair _ first second digits more _ _ _ hdigits hmore =>
    have hsplit : 92 :: 117 :: (digits ++ 92 :: 117 :: more) ++ rest =
        92 :: 117 :: (digits ++ 92 :: 117 :: (more ++ rest)) := by simp
    rw [hsplit, skipString_escape (skipEscape_digits hdigits _)]
    exact skipString_escape (skipEscape_digits hmore rest)

end Characters

section Strings

variable {s : String} {cs : List Char} {body bytes : Bytes}

theorem stringBytes_spellsAll (h : SpellsAll cs body) (read rest : Bytes) :
    stringBytes read (body ++ 34 :: rest) =
      .ok (read.reverse ++ cs.flatMap String.utf8EncodeChar, rest) := by
  induction h generalizing read with
  | nil => rw [List.nil_append, stringBytes, if_pos rfl, List.flatMap_nil, List.append_nil]
  | cons h hmore ih =>
    rw [List.append_assoc, stringBytes_spells h, ih, List.reverse_append, List.reverse_reverse,
      List.flatMap_cons, List.append_assoc]

theorem string_spellsAll (h : SpellsAll s.toList body) (rest : Bytes) :
    string (body ++ 34 :: rest) = .ok (s, rest) := by
  rw [string, stringBytes_spellsAll h, List.reverse_nil, List.nil_append, ← Text.utf8]
  simp only [bind, Except.bind, Text.ofUtf8?_utf8]

theorem skipString_spellsAll (h : SpellsAll cs body) (rest : Bytes) :
    skipString (body ++ 34 :: rest) = .ok rest := by
  induction h with
  | nil => rw [List.nil_append, skipString, if_pos rfl]
  | cons h hmore ih => rw [List.append_assoc, skipString_spells h, ih]

-- A string in quotation marks, and what is read behind the first of them.
theorem Quoted.append (h : Quoted s bytes) (rest : Bytes) :
    ∃ more, bytes ++ rest = 34 :: more ∧ string more = .ok (s, rest) ∧
      skipString more = .ok rest := by
  cases h with
  | @mk body h =>
    have hsplit : 34 :: (body ++ [34]) ++ rest = 34 :: (body ++ 34 :: rest) := by simp
    exact ⟨_, hsplit, string_spellsAll h rest, skipString_spellsAll h rest⟩

theorem SpellsAll.plain (h : ∀ c ∈ cs, 0x20 ≤ c.toNat ∧ c ≠ '"' ∧ c ≠ '\\') :
    SpellsAll cs (cs.flatMap String.utf8EncodeChar) := by
  induction cs with
  | nil => exact .nil
  | cons c cs ih =>
    obtain ⟨hcontrol, hquote, hbackslash⟩ := h c List.mem_cons_self
    exact .cons (.plain hcontrol hquote hbackslash) (ih fun d hd => h d (List.mem_cons_of_mem _ hd))

theorem quoted_plain (h : s.toList.all fun c => 0x20 ≤ c.toNat ∧ c ≠ '"' ∧ c ≠ '\\') :
    Quoted s (34 :: (Text.utf8 s ++ [34])) :=
  .mk (.plain fun c hc => of_decide_eq_true (List.all_eq_true.mp h c hc))

theorem exists_spells (c : Char) : ∃ bytes, Spells c bytes := by
  by_cases hquote : c = '"'
  · exact ⟨_, @Spells.short '"' c (by rw [hquote]; decide)⟩
  by_cases hbackslash : c = '\\'
  · exact ⟨_, @Spells.short '\\' c (by rw [hbackslash]; decide)⟩
  by_cases hcontrol : 0x20 ≤ c.toNat
  · exact ⟨_, .plain hcontrol hquote hbackslash⟩
  · obtain ⟨digits, h⟩ := exists_fourDigits (Nat.lt_of_not_le hcontrol |>.trans (by decide))
    exact ⟨_, .digits h⟩

-- Every string can be written.
theorem exists_quoted (s : String) : ∃ bytes, Quoted s bytes := by
  have hall : ∀ cs, ∃ body, SpellsAll cs body := by
    intro cs
    induction cs with
    | nil => exact ⟨_, .nil⟩
    | cons c cs ih =>
      obtain ⟨bytes, h⟩ := exists_spells c
      obtain ⟨rest, hmore⟩ := ih
      exact ⟨_, .cons h hmore⟩
  obtain ⟨body, h⟩ := hall s.toList
  exact ⟨_, .mk h⟩

end Strings

section Numbers

variable {n : Nat} {rest : Bytes}

-- The digits of a number.
def numeral (n : Nat) : Bytes := Text.utf8 (Nat.repr n)

theorem numeral_eq (n : Nat) :
    numeral n = (Nat.toDigits 10 n).map fun c => UInt8.ofNat c.toNat := by
  rw [numeral, Text.utf8, Nat.toList_repr, Text.utf8_ascii]
  intro c hc
  have hdigit := Text.isDigit_of_mem_toDigits hc
  simp only [Text.isDigit, Bool.and_eq_true, decide_eq_true_eq] at hdigit
  omega

theorem numeral_ne_nil (n : Nat) : numeral n ≠ [] := by
  rw [numeral_eq, Ne, List.map_eq_nil_iff]
  exact Nat.toDigits_ne_nil

theorem toNat_digit {c : Char} (h : Text.isDigit c = true) :
    (UInt8.ofNat c.toNat).toNat = c.toNat ∧ 48 ≤ c.toNat ∧ c.toNat ≤ 57 := by
  simp only [Text.isDigit, Bool.and_eq_true, decide_eq_true_eq] at h
  exact ⟨toNat_ofNat (by omega), h⟩

theorem isDigit_of_mem_numeral {b : UInt8} (h : b ∈ numeral n) : Number.isDigit b = true := by
  rw [numeral_eq] at h
  obtain ⟨c, hc, rfl⟩ := List.mem_map.mp h
  obtain ⟨hbyte, hlow, hhigh⟩ := toNat_digit (Text.isDigit_of_mem_toDigits hc)
  rw [Number.isDigit, hbyte, Bool.and_eq_true, decide_eq_true_eq, decide_eq_true_eq]
  exact ⟨hlow, hhigh⟩

theorem foldl_numeral (n : Nat) :
    (numeral n).foldl (fun value b => value * 10 + (b.toNat - 48)) 0 = n := by
  have hdigits : ∀ (cs : List Char) (start : Nat), (∀ c ∈ cs, Text.isDigit c = true) →
      (cs.map fun c => UInt8.ofNat c.toNat).foldl (fun value b => value * 10 + (b.toNat - 48)) start =
        cs.foldl (fun value c => value * 10 + (c.toNat - 48)) start := by
    intro cs
    induction cs with
    | nil => exact fun _ _ => rfl
    | cons c cs ih =>
      intro start h
      rw [List.map_cons, List.foldl_cons, List.foldl_cons, (toNat_digit (h c List.mem_cons_self)).1]
      exact ih _ fun d hd => h d (List.mem_cons_of_mem _ hd)
  rw [numeral_eq, hdigits _ _ fun c hc => Text.isDigit_of_mem_toDigits hc]
  exact Text.digitsValue_toDigits n

-- No zero stands in front of other digits.
theorem toDigits_zero_cons {more : List Char} (h : Nat.toDigits 10 n = '0' :: more) : more = [] := by
  induction n using Nat.strongRecOn generalizing more with
  | ind n ih =>
    rw [Nat.toDigits_eq_if (by decide)] at h
    split at h
    · exact (List.cons.inj h).2.symm
    · rename_i hten
      obtain ⟨first, digits, hcons⟩ := List.exists_cons_of_ne_nil
        (Nat.toDigits_ne_nil (b := 10) (n := n / 10))
      rw [hcons, List.cons_append] at h
      obtain ⟨rfl, -⟩ := List.cons.inj h
      have hzero := Text.digitsValue_toDigits (n / 10)
      rw [hcons, ih (n / 10) (by omega) hcons] at hzero
      have hvalue : Text.digitsValue ['0'] = 0 := by decide
      omega

theorem numeral_zero_cons {more : Bytes} (h : numeral n = 48 :: more) : more = [] := by
  rw [numeral_eq] at h
  obtain ⟨c, cs, hcons, hc, rfl⟩ := List.map_eq_cons_iff.mp h
  have hdigit := (toNat_digit (Text.isDigit_of_mem_toDigits (hcons ▸ List.mem_cons_self))).1
  rw [hc] at hdigit
  obtain rfl : c = '0' := Char.toNat_inj.mp hdigit.symm
  rw [toDigits_zero_cons hcons, List.map_nil]

theorem le_foldl_digits (digits : Bytes) (start : Nat) :
    start ≤ digits.foldl (fun value b => value * 10 + (b.toNat - 48)) start := by
  induction digits generalizing start with
  | nil => exact Nat.le_refl _
  | cons b digits ih =>
    have hmore := ih (start * 10 + (b.toNat - 48))
    rw [List.foldl_cons]
    omega

-- All digits of what fits a word are taken.
theorem absorb_digits {digits : Bytes} {start : Nat}
    (h : digits.foldl (fun value b => value * 10 + (b.toNat - 48)) start < Text.word64) :
    Number.absorb start digits =
      (digits.foldl (fun value b => value * 10 + (b.toNat - 48)) start, []) := by
  induction digits generalizing start with
  | nil => rfl
  | cons b digits ih =>
    rw [List.foldl_cons] at h ⊢
    have hnext := (le_foldl_digits digits _).trans_lt h
    rw [Number.absorb]
    simp only [hnext, if_true, ih h]

-- What may stand behind a number: nothing that could go on with it.
def EndsNumber (rest : Bytes) : Prop :=
  ∀ b ∈ rest.head?, Number.isDigit b = false ∧ b ≠ 46 ∧ b ≠ 101 ∧ b ≠ 69

theorem read_numeral (hn : n < Text.word64) (hrest : EndsNumber rest) :
    Number.read false (numeral n ++ rest) = .ok (.natural n, rest) := by
  have hdigits : ∀ b ∈ numeral n, Number.isDigit b = true := fun b hb => isDigit_of_mem_numeral hb
  have hend : ∀ b ∈ rest.head?, Number.isDigit b = false := fun b hb => (hrest b hb).1
  have hvalue : Number.absorb 0 (numeral n) = (n, []) := by
    rw [absorb_digits (by rwa [foldl_numeral]), foldl_numeral]
  obtain ⟨first, more, hcons⟩ := List.exists_cons_of_ne_nil (numeral_ne_nil n)
  have hzero : ¬ (first = 48 ∧ more ≠ []) := by
    rintro ⟨rfl, hmore⟩
    exact hmore (numeral_zero_cons hcons)
  rw [Number.read, Text.takeWhile_boundary hdigits hend, Text.dropWhile_boundary hdigits hend]
  rw [hcons] at hvalue ⊢
  simp only [hzero, hvalue, if_false]
  cases rest with
  | nil => rfl
  | cons b rest =>
    obtain ⟨-, hpoint, hsmall, hlarge⟩ := hrest b rfl
    split
    · rename_i hb
      exact absurd (List.cons.inj hb).1 hpoint
    · rename_i hb
      exact absurd (List.cons.inj hb).1 hsmall
    · rename_i hb
      exact absurd (List.cons.inj hb).1 hlarge
    · rfl

end Numbers

section Values

variable {gap bytes rest : Bytes} {s : String} {n : Nat}

-- Nothing but spaces, tabs and ends of lines.
def Blank (gap : Bytes) : Prop := ∀ b ∈ gap, b ∈ ([32, 9, 10, 13] : Bytes)

theorem isBlank_iff {b : UInt8} : isBlank b = true ↔ b ∈ ([32, 9, 10, 13] : Bytes) := by
  simp only [isBlank, Bool.or_eq_true, beq_iff_eq, List.mem_cons, List.not_mem_nil, or_false,
    or_assoc]

theorem all_isBlank_iff : gap.all isBlank = true ↔ Blank gap := by
  simp only [List.all_eq_true, isBlank_iff, Blank]

instance (gap : Bytes) : Decidable (Blank gap) := decidable_of_iff _ all_isBlank_iff

-- Blanks do not go on with a number.
theorem not_digit_of_blank {b : UInt8} (h : b ∈ ([32, 9, 10, 13] : Bytes)) :
    Number.isDigit b = false ∧ b ≠ 46 ∧ b ≠ 101 ∧ b ≠ 69 := by
  simp only [List.mem_cons, List.not_mem_nil, or_false] at h
  rcases h with rfl | rfl | rfl | rfl <;> decide

theorem skipBlank_gap {b : UInt8} (hgap : Blank gap) (hb : isBlank b = false) (rest : Bytes) :
    skipBlank (gap ++ b :: rest) = b :: rest := by
  refine Text.dropWhile_boundary (fun b hb => isBlank_iff.mpr (hgap b hb)) ?_
  rintro _ ⟨⟩
  exact hb

theorem endsNumber_gap {b : UInt8} (hgap : Blank gap) (hb : EndsNumber (b :: rest)) :
    EndsNumber (gap ++ b :: rest) := by
  cases gap with
  | nil => exact hb
  | cons d gap =>
    rintro _ ⟨⟩
    exact not_digit_of_blank (hgap d List.mem_cons_self)

theorem skipBlank_all (hgap : Blank gap) : skipBlank gap = [] :=
  List.dropWhile_eq_nil_iff.mpr fun b hb => isBlank_iff.mpr (hgap b hb)

theorem wantString_quoted (hgap : Blank gap) (h : Quoted s bytes) (expected : String) (rest : Bytes) :
    wantString expected (gap ++ (bytes ++ rest)) = .ok (s, rest) := by
  obtain ⟨more, hmore, hstring, -⟩ := h.append rest
  rw [wantString, hmore, skipBlank_gap hgap (by decide)]
  exact hstring

theorem wantNatural_numeral (hgap : Blank gap) (hn : n < Text.word64) (hrest : EndsNumber rest)
    (expected : String) : wantNatural expected (gap ++ (numeral n ++ rest)) = .ok (n, rest) := by
  have hread := read_numeral hn hrest
  obtain ⟨first, more, hcons⟩ := List.exists_cons_of_ne_nil (numeral_ne_nil n)
  have hdigit : Number.isDigit first = true := isDigit_of_mem_numeral (hcons ▸ List.mem_cons_self)
  have hblank : isBlank first = false := by
    rw [← Bool.not_eq_true, isBlank_iff]
    exact fun hmem => absurd hdigit (by rw [(not_digit_of_blank hmem).1]; decide)
  have hminus : first ≠ 45 := by
    rintro rfl
    exact absurd hdigit (by decide)
  rw [hcons, List.cons_append] at hread ⊢
  rw [wantNatural, skipBlank_gap hgap hblank]
  simp only [if_neg hminus, hdigit, if_true, hread, bind, Except.bind, naturalOnly]

theorem wantNull_null (hgap : Blank gap) (expected : String) (rest : Bytes) :
    wantNull expected (gap ++ 110 :: (nullRest ++ rest)) = .ok rest := by
  rw [wantNull, skipBlank_gap hgap (by decide)]
  rfl

theorem colon_gap (hgap : Blank gap) (rest : Bytes) : colon (gap ++ 58 :: rest) = .ok rest := by
  rw [colon, skipBlank_gap hgap (by decide)]
  rfl

theorem skipValue_quoted (hgap : Blank gap) (h : Quoted s bytes) (rest : Bytes) :
    skipValue (gap ++ (bytes ++ rest)) = .ok rest := by
  obtain ⟨more, hmore, -, hskip⟩ := h.append rest
  have hscalar : skipScalar (34 :: more) = .ok rest := hskip
  obtain ⟨fuel, hfuel⟩ : ∃ fuel, 2 * (gap ++ (bytes ++ rest)).length + 2 = fuel + 1 + 1 := ⟨_, rfl⟩
  rw [skipValue, hfuel, skipNested, hmore, skipBlank_gap hgap (by decide)]
  change (do
    let rest ← skipScalar (34 :: more)
    skipBehind (fuel + 1) true [] rest) = .ok rest
  rw [hscalar]
  rfl

end Values

end BlobStorage.Json
