import BlobStorage.Proofs.Text.Split
import BlobStorage.Xml.Element

-- Documents as a service writes them, and that they are read as what they were written from.
namespace BlobStorage.Xml

section Reader

-- A step that only changes what was read leaves what follows.
theorem exists_of_map_eq_some {read : Option (α × γ)} {step : α × γ → β × γ} {found : β} {rest : γ}
    (h : read.map step = some (found, rest)) (hstep : ∀ pair, (step pair).2 = pair.2) :
    ∃ front, read = some (front, rest) := by
  obtain ⟨⟨front, behind⟩, hread, hpair⟩ := Option.map_eq_some_iff.mp h
  have hbehind : rest = behind := by
    have hkept := hstep (front, behind)
    rwa [hpair] at hkept
  exact ⟨front, by rw [hread, hbehind]⟩

theorem until?_length {mark cs front behind : List Char} (h : until? mark cs = some (front, behind)) :
    behind.length ≤ cs.length := by
  induction cs generalizing front with
  | nil =>
    unfold until? at h
    split at h
    · cases h
      exact Nat.le_refl _
    · exact nomatch h
  | cons c cs ih =>
    unfold until? at h
    split at h
    · cases h
      rw [List.length_drop]
      omega
    · obtain ⟨front', hrest⟩ := exists_of_map_eq_some h fun _ => rfl
      have hle := ih hrest
      rw [List.length_cons]
      omega

theorem tag?_length {quote : Option Char} {cs front behind : List Char}
    (h : tag? quote cs = some (front, behind)) : behind.length < cs.length := by
  induction cs generalizing quote front with
  | nil => exact nomatch h
  | cons c cs ih =>
    unfold tag? at h
    split at h
    · cases h
      rw [List.length_cons]
      omega
    · obtain ⟨front', hrest⟩ := exists_of_map_eq_some h fun _ => rfl
      have hlt := ih hrest
      rw [List.length_cons]
      omega

theorem next?_length {cs rest : List Char} {found : List Token} (hne : cs ≠ [])
    (h : next? cs = some (found, rest)) : rest.length < cs.length := by
  have huntil : ∀ {mark cs} {step : List Char × List Char → List Token × List Char},
      (until? mark cs).map step = some (found, rest) → (∀ read, (step read).2 = read.2) →
        rest.length ≤ cs.length := by
    intro mark cs step h hstep
    obtain ⟨front, hrest⟩ := exists_of_map_eq_some h hstep
    exact until?_length hrest
  have htag : ∀ {cs} {step : List Char × List Char → List Token × List Char},
      (tag? none cs).map step = some (found, rest) → (∀ read, (step read).2 = read.2) →
        rest.length ≤ cs.length := by
    intro cs step h hstep
    obtain ⟨front, hrest⟩ := exists_of_map_eq_some h hstep
    exact Nat.le_of_lt (tag?_length hrest)
  unfold next? at h
  split at h
  · have hle := huntil h fun _ => rfl
    simp only [List.length_cons]
    omega
  · have hle := huntil h fun _ => rfl
    simp only [List.length_cons]
    omega
  · have hle := htag h fun _ => rfl
    simp only [List.length_cons]
    omega
  · have hle := huntil h fun _ => rfl
    simp only [List.length_cons]
    omega
  · have hle := htag h fun _ => rfl
    simp only [List.length_cons]
    omega
  · rename_i hmark
    cases h
    obtain ⟨c, cs, rfl⟩ := List.exists_cons_of_ne_nil hne
    have hc : c ≠ '<' := by
      rintro rfl
      exact hmark cs rfl
    have hle := List.length_dropWhile_le (· ≠ '<') cs
    rw [List.dropWhile_cons, if_pos (by simpa using hc), List.length_cons]
    omega

-- Any fuel above the length gives the same tokens.
theorem tokens_fuel {fuel other : Nat} {cs : List Char} (hfuel : cs.length < fuel)
    (hother : cs.length < other) : tokens fuel cs = tokens other cs := by
  induction fuel generalizing other cs with
  | zero => omega
  | succ fuel ih =>
    obtain ⟨other, rfl⟩ : ∃ n, other = n + 1 := ⟨other - 1, by omega⟩
    cases cs with
    | nil => rfl
    | cons c cs =>
      unfold tokens
      cases hnext : next? (c :: cs) with
      | none => rfl
      | some step =>
        obtain ⟨found, rest⟩ := step
        have hlt := next?_length (List.cons_ne_nil c cs) hnext
        simp only
        rw [ih (by omega) (by omega : rest.length < other)]

def allTokens (cs : List Char) : List Token := tokens (cs.length + 1) cs

theorem allTokens_next {cs rest : List Char} {found : List Token} (hne : cs ≠ [])
    (h : next? cs = some (found, rest)) : allTokens cs = found ++ allTokens rest := by
  have hlt := next?_length hne h
  obtain ⟨c, cs, rfl⟩ := List.exists_cons_of_ne_nil hne
  rw [allTokens, tokens, h]
  simp only
  rw [tokens_fuel hlt (Nat.lt_succ_self _), allTokens]

end Reader

section Writing

-- Text as it is written.
def escapeChar (c : Char) : List Char :=
  if c = '&' then "&amp;".toList
  else if c = '<' then "&lt;".toList
  else if c = '>' then "&gt;".toList
  else [c]

def escape (s : String) : List Char := s.toList.flatMap escapeChar

def isNameChar (c : Char) : Bool := !isBlank c && !"<>/!?=\"'&".toList.contains c

structure Name where
  text : List Char
  ne_nil : text ≠ []
  plain : ∀ c ∈ text, isNameChar c = true

-- An attribute, its value as it stands between the quotation marks.
structure Attribute where
  name : Name
  mark : Char
  value : List Char
  isMark : mark = '"' ∨ mark = '\''
  unmarked : mark ∉ value

def Attribute.written (a : Attribute) : List Char :=
  ' ' :: (a.name.text ++ '=' :: a.mark :: (a.value ++ [a.mark]))

def attributesText (attributes : List Attribute) : List Char := attributes.flatMap Attribute.written

-- What an element contains: texts between elements, which have content or are closed at once.
inductive Content where
  | text (s : String)
  | element (before : String) (name : Name) (attributes : List Attribute) (inner rest : Content)
  | alone (before : String) (name : Name) (attributes : List Attribute) (rest : Content)

-- Where nothing is written there is no text.
def textTokens (cs : List Char) : List Token := if cs = [] then [] else [.text cs]

def textNodes (cs : List Char) : List Node := if cs = [] then [] else [.text [⟨cs, false⟩]]

namespace Content

def written : Content → List Char
  | text s => escape s
  | element before name attributes inner rest =>
    escape before ++ '<' :: (name.text ++ attributesText attributes ++ '>' ::
      (inner.written ++ '<' :: '/' :: (name.text ++ '>' :: rest.written)))
  | alone before name attributes rest =>
    escape before ++ '<' :: (name.text ++ attributesText attributes ++ ' ' :: '/' :: '>' ::
      rest.written)

def tokens : Content → List Token
  | text s => textTokens (escape s)
  | element before name attributes inner rest =>
    textTokens (escape before) ++ .start name.text (attributesText attributes) ::
      (inner.tokens ++ .stop name.text :: rest.tokens)
  | alone before name attributes rest =>
    textTokens (escape before) ++ .start name.text (attributesText attributes ++ [' ']) ::
      .stop name.text :: rest.tokens

def nodes : Content → List Node
  | text s => textNodes (escape s)
  | element before name attributes inner rest =>
    textNodes (escape before) ++ .element name.text (attributesText attributes) inner.nodes :: rest.nodes
  | alone before name attributes rest =>
    textNodes (escape before) ++ .element name.text (attributesText attributes ++ [' ']) [] :: rest.nodes

end Content

end Writing

section Reading

theorem bracket_not_mem_escape (s : String) : '<' ∉ escape s := by
  intro h
  obtain ⟨c, -, hc⟩ := List.mem_flatMap.mp h
  unfold escapeChar at hc
  split at hc
  · exact absurd hc (by decide)
  · split at hc
    · exact absurd hc (by decide)
    · split at hc
      · exact absurd hc (by decide)
      · rename_i hbracket _
        exact hbracket (List.mem_singleton.mp hc).symm

theorem allTokens_text {cs rest : List Char} (h : '<' ∉ cs) (hrest : rest.head? = some '<') :
    allTokens (cs ++ rest) = textTokens cs ++ allTokens rest := by
  obtain ⟨behind, rfl⟩ : ∃ behind, rest = '<' :: behind := by
    cases rest with
    | nil => exact nomatch hrest
    | cons c behind => exact ⟨behind, by rw [Option.some.inj hrest]⟩
  cases cs with
  | nil => rfl
  | cons c cs =>
    have hplain : ∀ d ∈ c :: cs, decide (d ≠ '<') = true := by
      intro d hd
      simpa using fun heq : d = '<' => h (heq ▸ hd)
    have hc : c ≠ '<' := by simpa using hplain c List.mem_cons_self
    have hnext : next? (c :: cs ++ '<' :: behind) = some ([.text (c :: cs)], '<' :: behind) := by
      have hbracket : ∀ d ∈ ('<' :: behind).head?, decide (d ≠ '<') = false := by simp
      have htake := Text.takeWhile_boundary hplain hbracket
      have hdrop := Text.dropWhile_boundary hplain hbracket
      rw [List.cons_append] at htake hdrop ⊢
      unfold next?
      split <;> simp_all
    exact allTokens_next (List.cons_ne_nil _ _) hnext

theorem nameChar_plain {c : Char} (h : isNameChar c = true) :
    isBlank c = false ∧ c ≠ '<' ∧ c ≠ '>' ∧ c ≠ '/' ∧ c ≠ '!' ∧ c ≠ '?' ∧ c ≠ '=' ∧ c ≠ '"' ∧
      c ≠ '\'' := by
  simp only [isNameChar, Bool.and_eq_true, Bool.not_eq_true', List.contains_eq_mem,
    decide_eq_false_iff_not] at h
  obtain ⟨hblank, hmarks⟩ := h
  refine ⟨hblank, ?_, ?_, ?_, ?_, ?_, ?_, ?_, ?_⟩ <;> rintro rfl <;> exact hmarks (by decide)

theorem tag?_plain {cs : List Char} (h : ∀ c ∈ cs, c ≠ '>' ∧ c ≠ '"' ∧ c ≠ '\'')
    (rest : List Char) :
    tag? none (cs ++ rest) = (tag? none rest).map fun (front, behind) => (cs ++ front, behind) := by
  induction cs with
  | nil =>
    rw [List.nil_append]
    cases tag? none rest <;> rfl
  | cons c cs ih =>
    obtain ⟨hend, hdouble, hsingle⟩ := h c List.mem_cons_self
    rw [List.cons_append, tag?]
    simp only [hend, hdouble, hsingle, and_false, or_self, if_false, reduceCtorEq]
    rw [ih fun d hd => h d (List.mem_cons_of_mem _ hd)]
    cases tag? none rest <;> rfl

theorem tag?_quoted {mark : Char} {cs : List Char} (h : mark ∉ cs) (rest : List Char) :
    tag? (some mark) (cs ++ mark :: rest) =
      (tag? none rest).map fun (front, behind) => (cs ++ mark :: front, behind) := by
  induction cs with
  | nil =>
    rw [List.nil_append, tag?]
    simp only [reduceCtorEq, false_and, if_false, if_true]
    cases tag? none rest <;> rfl
  | cons c cs ih =>
    have hc : some mark ≠ some c := by
      intro heq
      exact h (Option.some.inj heq ▸ List.mem_cons_self)
    rw [List.cons_append, tag?]
    simp only [reduceCtorEq, false_and, if_false, hc]
    rw [ih fun hmem => h (List.mem_cons_of_mem _ hmem)]
    cases tag? none rest <;> rfl

theorem tag?_written (a : Attribute) (rest : List Char) :
    tag? none (a.written ++ rest) =
      (tag? none rest).map fun (front, behind) => (a.written ++ front, behind) := by
  have hplain : ∀ c ∈ ' ' :: (a.name.text ++ ['=']), c ≠ '>' ∧ c ≠ '"' ∧ c ≠ '\'' := by
    intro c hc
    rw [List.mem_cons, List.mem_append, List.mem_singleton] at hc
    rcases hc with rfl | hc | rfl
    · decide
    · obtain ⟨-, -, hend, -, -, -, -, hdouble, hsingle⟩ := nameChar_plain (a.name.plain c hc)
      exact ⟨hend, hdouble, hsingle⟩
    · decide
  have hmark : tag? none (a.mark :: (a.value ++ a.mark :: rest)) =
      (tag? (some a.mark) (a.value ++ a.mark :: rest)).map fun (front, behind) =>
        (a.mark :: front, behind) := by
    rcases a.isMark with h | h <;> rw [h, tag?] <;> rfl
  have hsplit : a.written ++ rest =
      (' ' :: (a.name.text ++ ['='])) ++ a.mark :: (a.value ++ a.mark :: rest) := by
    simp [Attribute.written]
  rw [hsplit, tag?_plain hplain, hmark, tag?_quoted a.unmarked]
  cases tag? none rest <;> simp [Attribute.written]

theorem tag?_attributesText (attributes : List Attribute) (rest : List Char) :
    tag? none (attributesText attributes ++ rest) =
      (tag? none rest).map fun (front, behind) => (attributesText attributes ++ front, behind) := by
  induction attributes with
  | nil =>
    show tag? none rest = _
    cases tag? none rest <;> rfl
  | cons a attributes ih =>
    rw [attributesText, List.flatMap_cons, ← attributesText, List.append_assoc, tag?_written, ih]
    cases tag? none rest <;> simp

theorem tag?_name (name : Name) (rest : List Char) :
    tag? none (name.text ++ rest) =
      (tag? none rest).map fun (front, behind) => (name.text ++ front, behind) := by
  apply tag?_plain
  intro c hc
  obtain ⟨-, -, hend, -, -, -, -, hdouble, hsingle⟩ := nameChar_plain (name.plain c hc)
  exact ⟨hend, hdouble, hsingle⟩

theorem tag?_end (rest : List Char) : tag? none ('>' :: rest) = some ([], rest) := by
  rw [tag?, if_pos ⟨rfl, rfl⟩]

theorem next?_tag {c : Char} (hdeclaration : c ≠ '!') (hinstruction : c ≠ '?') (cs : List Char) :
    next? ('<' :: c :: cs) =
      (tag? none (c :: cs)).map fun (content, behind) => (ofTag content, behind) := by
  unfold next?
  split <;> simp_all

theorem slash_not_last (name : Name) (attributes : List Attribute) :
    (name.text ++ attributesText attributes).getLast? ≠ some '/' := by
  intro h
  rcases List.eq_nil_or_concat attributes with rfl | ⟨front, last, rfl⟩
  · have hlast : '/' ∈ name.text := List.mem_of_getLast? (by simpa [attributesText] using h)
    exact (nameChar_plain (name.plain '/' hlast)).2.2.2.1 rfl
  · have hwritten : name.text ++ attributesText (front.concat last) =
        (name.text ++ attributesText front ++ ' ' :: (last.name.text ++ '=' :: last.mark :: last.value)) ++
          [last.mark] := by
      simp [attributesText, Attribute.written]
    have hlast : (name.text ++ attributesText (front.concat last)).getLast? = some last.mark := by
      rw [hwritten, List.getLast?_concat]
    rw [hlast] at h
    rcases last.isMark with hmark | hmark <;> rw [hmark] at h <;> exact absurd h (by decide)

-- A name ends at the blank in front of the first attribute, or with the tag.
theorem takeWhile_inside (name : Name) (attributes : List Attribute) (rest : List Char)
    (h : ∀ c ∈ rest.head?, isBlank c = true) :
    (name.text ++ (attributesText attributes ++ rest)).takeWhile (!isBlank ·) = name.text := by
  apply Text.takeWhile_boundary
  · intro c hc
    rw [(nameChar_plain (name.plain c hc)).1]
    rfl
  · cases attributes with
    | nil => simpa [attributesText] using h
    | cons a attributes =>
      rintro c ⟨⟩
      decide

theorem ofTag_inside (name : Name) (attributes : List Attribute) :
    ofTag (name.text ++ attributesText attributes) =
      [.start name.text (attributesText attributes)] := by
  have hslash := slash_not_last name attributes
  have htake := takeWhile_inside name attributes [] nofun
  rw [List.append_nil] at htake
  obtain ⟨c, cs, hname⟩ := List.exists_cons_of_ne_nil name.ne_nil
  have hc : c ≠ '/' := (nameChar_plain (name.plain c (hname ▸ List.mem_cons_self))).2.2.2.1
  unfold ofTag
  split
  · rename_i hcons
    rw [hname, List.cons_append] at hcons
    exact absurd (List.cons.inj hcons).1 hc
  · simp only [if_neg hslash, htake, List.drop_left]

theorem ofTag_alone (name : Name) (attributes : List Attribute) :
    ofTag (name.text ++ attributesText attributes ++ [' ', '/']) =
      [.start name.text (attributesText attributes ++ [' ']), .stop name.text] := by
  have htake := takeWhile_inside name attributes [' '] (by simp [isBlank])
  have hlast : (name.text ++ attributesText attributes ++ [' ', '/']).dropLast =
      name.text ++ (attributesText attributes ++ [' ']) := by
    have hsplit : [' ', '/'] = [' '] ++ ['/'] := rfl
    rw [hsplit, ← List.append_assoc, List.dropLast_concat, List.append_assoc]
  obtain ⟨c, cs, hname⟩ := List.exists_cons_of_ne_nil name.ne_nil
  have hc : c ≠ '/' := (nameChar_plain (name.plain c (hname ▸ List.mem_cons_self))).2.2.2.1
  unfold ofTag
  split
  · rename_i hcons
    rw [hname, List.cons_append, List.cons_append] at hcons
    exact absurd (List.cons.inj hcons).1 hc
  · have hslash : (name.text ++ attributesText attributes ++ [' ', '/']).getLast? = some '/' := by simp
    simp only [if_pos hslash, hlast, htake, List.drop_left]

theorem dropBlanksAtEnd_name (name : Name) : dropBlanksAtEnd name.text = name.text := by
  have hne : name.text.reverse ≠ [] := by simpa using name.ne_nil
  obtain ⟨c, cs, hcons⟩ := List.exists_cons_of_ne_nil hne
  have hmem : c ∈ name.text := List.mem_reverse.mp (hcons ▸ List.mem_cons_self)
  rw [dropBlanksAtEnd, hcons, List.dropWhile_cons,
    if_neg (by rw [(nameChar_plain (name.plain c hmem)).1]; decide), ← hcons, List.reverse_reverse]

theorem allTokens_start (name : Name) (attributes : List Attribute) (rest : List Char) :
    allTokens ('<' :: (name.text ++ attributesText attributes ++ '>' :: rest)) =
      .start name.text (attributesText attributes) :: allTokens rest := by
  obtain ⟨c, cs, hname⟩ := List.exists_cons_of_ne_nil name.ne_nil
  obtain ⟨-, -, -, -, hdeclaration, hinstruction, -⟩ :=
    nameChar_plain (name.plain c (hname ▸ List.mem_cons_self))
  have htag : tag? none (name.text ++ attributesText attributes ++ '>' :: rest) =
      some (name.text ++ attributesText attributes, rest) := by
    rw [List.append_assoc, tag?_name, tag?_attributesText, tag?_end]
    simp
  have hnext : next? ('<' :: (name.text ++ attributesText attributes ++ '>' :: rest)) =
      some ([.start name.text (attributesText attributes)], rest) := by
    rw [← ofTag_inside]
    rw [hname] at htag ⊢
    rw [List.cons_append, List.cons_append] at htag ⊢
    rw [next?_tag hdeclaration hinstruction, htag]
    rfl
  exact allTokens_next (List.cons_ne_nil _ _) hnext

theorem allTokens_alone (name : Name) (attributes : List Attribute) (rest : List Char) :
    allTokens ('<' :: (name.text ++ attributesText attributes ++ ' ' :: '/' :: '>' :: rest)) =
      .start name.text (attributesText attributes ++ [' ']) :: .stop name.text ::
        allTokens rest := by
  obtain ⟨c, cs, hname⟩ := List.exists_cons_of_ne_nil name.ne_nil
  obtain ⟨-, -, -, -, hdeclaration, hinstruction, -⟩ :=
    nameChar_plain (name.plain c (hname ▸ List.mem_cons_self))
  have hclose : tag? none ([' ', '/'] ++ '>' :: rest) = some ([' ', '/'], rest) := by
    rw [tag?_plain (by simp), tag?_end]
    rfl
  have htag : tag? none (name.text ++ attributesText attributes ++ ' ' :: '/' :: '>' :: rest) =
      some (name.text ++ attributesText attributes ++ [' ', '/'], rest) := by
    have hsplit : ' ' :: '/' :: '>' :: rest = [' ', '/'] ++ '>' :: rest := rfl
    rw [hsplit, List.append_assoc, tag?_name, tag?_attributesText, hclose]
    simp
  have hnext : next? ('<' :: (name.text ++ attributesText attributes ++ ' ' :: '/' :: '>' :: rest)) =
      some ([.start name.text (attributesText attributes ++ [' ']), .stop name.text], rest) := by
    rw [← ofTag_alone]
    rw [hname] at htag ⊢
    simp only [List.cons_append] at htag ⊢
    rw [next?_tag hdeclaration hinstruction, htag]
    rfl
  exact allTokens_next (List.cons_ne_nil _ _) hnext

theorem allTokens_stop (name : Name) (rest : List Char) :
    allTokens ('<' :: '/' :: (name.text ++ '>' :: rest)) = .stop name.text :: allTokens rest := by
  have htag : tag? none ('/' :: (name.text ++ '>' :: rest)) = some ('/' :: name.text, rest) := by
    have hsplit : '/' :: (name.text ++ '>' :: rest) = ['/'] ++ (name.text ++ '>' :: rest) := rfl
    rw [hsplit, tag?_plain (by simp), tag?_name, tag?_end]
    simp
  have hnext : next? ('<' :: '/' :: (name.text ++ '>' :: rest)) = some ([.stop name.text], rest) := by
    rw [next?_tag (by decide) (by decide), htag]
    simp [ofTag, dropBlanksAtEnd_name]
  exact allTokens_next (List.cons_ne_nil _ _) hnext

-- The tokens of what was written are those of what it was written from.
theorem Content.allTokens_written (content : Content) {rest : List Char}
    (hrest : rest.head? = some '<') :
    allTokens (content.written ++ rest) = content.tokens ++ allTokens rest := by
  induction content generalizing rest with
  | text s => exact allTokens_text (bracket_not_mem_escape s) hrest
  | element before name attributes inner more ihInner ihMore =>
    have hstop : ('<' :: '/' :: (name.text ++ '>' :: (more.written ++ rest))).head? = some '<' := rfl
    simp only [Content.written, Content.tokens, List.append_assoc, List.cons_append]
    rw [allTokens_text (bracket_not_mem_escape before) rfl, ← List.append_assoc name.text, allTokens_start, ihInner hstop,
      allTokens_stop, ihMore hrest]
  | alone before name attributes more ih =>
    simp only [Content.written, Content.tokens, List.append_assoc, List.cons_append]
    rw [allTokens_text (bracket_not_mem_escape before) rfl, ← List.append_assoc name.text, allTokens_alone, ih hrest]

end Reading

end BlobStorage.Xml
