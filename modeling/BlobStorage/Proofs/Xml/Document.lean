import BlobStorage.Proofs.Xml.Markup
import Mathlib.Data.List.Induction

-- Documents that were written are read as the elements, attributes and texts that they were written
-- from, except for blanks at both ends of a text.
namespace BlobStorage.Xml

section Nodes

theorem nodes_textTokens (cs : List Char) {fuel : Nat} {name : List Char} {tokens rest : List Token}
    {found : List Node} (hfound : ∀ pieces more, found ≠ .text pieces :: more)
    (h : ∀ n, tokens.length < n → nodes n name tokens = some (found, rest))
    (hfuel : (textTokens cs ++ tokens).length < fuel) :
    nodes fuel name (textTokens cs ++ tokens) = some (textNodes cs ++ found, rest) := by
  by_cases hcs : cs = []
  · subst hcs
    exact h fuel hfuel
  · have hcons : consPiece ⟨cs, false⟩ found = .text [⟨cs, false⟩] :: found := by
      unfold consPiece
      split
      · exact absurd rfl (hfound _ _)
      · rfl
    obtain ⟨fuel, rfl⟩ : ∃ n, fuel = n + 1 := ⟨fuel - 1, by omega⟩
    simp only [textTokens, textNodes, if_neg hcs, List.singleton_append,
      List.length_cons] at hfuel ⊢
    rw [nodes]
    simp only [h fuel (by omega), Option.map_some, hcons]

theorem nodes_stop (name : Name) (rest : List Token) {fuel : Nat}
    (hfuel : (Token.stop name.text :: rest).length < fuel) :
    nodes fuel name.text (.stop name.text :: rest) = some ([], rest) := by
  obtain ⟨fuel, rfl⟩ : ∃ n, fuel = n + 1 := ⟨fuel - 1, by omega⟩
  rw [nodes]
  simp only [if_true]

-- Text, an element, and what is behind it.
theorem nodes_element (before attributes : List Char) {name child : List Char}
    {tokens between rest : List Token} {inner more : List Node} {fuel : Nat}
    (hinner : ∀ n, tokens.length < n → nodes n child tokens = some (inner, between))
    (hmore : ∀ n, tokens.length < n → nodes n name between = some (more, rest))
    (hfuel : (textTokens before ++ .start child attributes :: tokens).length < fuel) :
    nodes fuel name (textTokens before ++ .start child attributes :: tokens) =
      some (textNodes before ++ .element child attributes inner :: more, rest) := by
  refine nodes_textTokens before (by intro pieces rest; exact nofun) (fun n hn => ?_) hfuel
  rw [List.length_cons] at hn
  obtain ⟨n, rfl⟩ : ∃ m, n = m + 1 := ⟨n - 1, by omega⟩
  rw [nodes]
  simp only [hinner n (by omega), hmore n (by omega), Option.bind_eq_bind, Option.bind_some]

-- The nodes of what was written, up to the end of the element that it is in.
theorem Content.nodes_tokens (content : Content) (name : Name) (rest : List Token) (fuel : Nat)
    (hfuel : (content.tokens ++ .stop name.text :: rest).length < fuel) :
    Xml.nodes fuel name.text (content.tokens ++ .stop name.text :: rest) =
      some (content.nodes, rest) := by
  induction content generalizing name rest fuel with
  | text s =>
    have hnodes := nodes_textTokens (escape s) (by intro pieces more; exact nofun)
      (fun n => nodes_stop name rest) hfuel
    rwa [List.append_nil] at hnodes
  | element before child attributes inner more ihInner ihMore =>
    simp only [Content.tokens, Content.nodes, List.append_assoc, List.cons_append] at hfuel ⊢
    refine nodes_element _ _ (fun n => ihInner child _ n) (fun n hn => ihMore name rest n ?_) hfuel
    simp only [List.length_append, List.length_cons] at hn ⊢
    omega
  | alone before child attributes more ih =>
    simp only [Content.tokens, Content.nodes, List.append_assoc, List.cons_append] at hfuel ⊢
    refine nodes_element _ _ (fun n => nodes_stop child _) (fun n hn => ih name rest n ?_) hfuel
    simp only [List.length_append, List.length_cons] at hn ⊢
    omega

end Nodes

section Root

-- What may stand in front of the root element: a declaration, and blanks.
structure Prolog where
  declaration : Option (List Char)
  gap : List Char
  unmarked : ∀ text ∈ declaration, '?' ∉ text
  blank : ∀ c ∈ gap, isBlank c = true

def declarationText (text : List Char) : List Char := '<' :: '?' :: (text ++ ['?', '>'])

def Prolog.written (prolog : Prolog) : List Char :=
  (prolog.declaration.elim [] declarationText) ++ prolog.gap

theorem until?_unmarked {text : List Char} (h : '?' ∉ text) (rest : List Char) :
    until? ['?', '>'] (text ++ '?' :: '>' :: rest) = some (text, rest) := by
  induction text with
  | nil => rfl
  | cons c text ih =>
    have hc : ('?' == c) = false := by
      rw [beq_eq_false_iff_ne]
      rintro rfl
      exact h List.mem_cons_self
    rw [List.cons_append, until?, ih fun hmem => h (List.mem_cons_of_mem _ hmem)]
    simp [List.isPrefixOf, hc]

theorem allTokens_declaration {text : List Char} (h : '?' ∉ text) (rest : List Char) :
    allTokens (declarationText text ++ rest) = allTokens rest := by
  have hnext : next? ('<' :: '?' :: (text ++ '?' :: '>' :: rest)) = some ([], rest) := by
    have hinstruction : next? ('<' :: '?' :: (text ++ '?' :: '>' :: rest)) =
        (until? ['?', '>'] (text ++ '?' :: '>' :: rest)).map fun read => ([], read.2) := rfl
    rw [hinstruction, until?_unmarked h]
    rfl
  have hsplit : declarationText text ++ rest = '<' :: '?' :: (text ++ '?' :: '>' :: rest) := by
    simp [declarationText]
  rw [hsplit]
  exact allTokens_next (List.cons_ne_nil _ _) hnext

theorem Prolog.allTokens_written (prolog : Prolog) {rest : List Char}
    (hrest : rest.head? = some '<') :
    allTokens (prolog.written ++ rest) = textTokens prolog.gap ++ allTokens rest := by
  have hgap : '<' ∉ prolog.gap := by
    intro h
    exact absurd (prolog.blank '<' h) (by decide)
  rw [Prolog.written, List.append_assoc]
  cases hdeclaration : prolog.declaration with
  | none => exact allTokens_text hgap hrest
  | some text =>
    rw [Option.elim_some, allTokens_declaration (prolog.unmarked text hdeclaration)]
    exact allTokens_text hgap hrest

def documentText (prolog : Prolog) (name : Name) (attributes : List Attribute) (content : Content) :
    List Char :=
  prolog.written ++ '<' :: (name.text ++ attributesText attributes ++ '>' ::
    (content.written ++ '<' :: '/' :: (name.text ++ ['>'])))

theorem ofDocument?_documentText (prolog : Prolog) (name : Name) (attributes : List Attribute)
    (content : Content) :
    ofDocument? (String.ofList (documentText prolog name attributes content)) =
      some (.element name.text (attributesText attributes) content.nodes) := by
  have hroot : ∀ rest, root? (textTokens prolog.gap ++ .start name.text rest ::
      (content.tokens ++ [.stop name.text])) = some (.element name.text rest content.nodes) := by
    intro rest
    have hstart : root? (.start name.text rest :: (content.tokens ++ [.stop name.text])) =
        some (.element name.text rest content.nodes) := by
      rw [root?, content.nodes_tokens name [] _ (Nat.lt_succ_self _)]
      rfl
    by_cases hgap : prolog.gap = []
    · rw [hgap]
      exact hstart
    · have hblank : prolog.gap.all isBlank = true := List.all_eq_true.mpr prolog.blank
      rw [textTokens, if_neg hgap, List.singleton_append, root?, if_pos hblank, hstart]
  have hend : allTokens [] = [] := rfl
  rw [ofDocument?, String.toList_ofList, ← allTokens, documentText, prolog.allTokens_written rfl,
    allTokens_start, content.allTokens_written rfl, allTokens_stop, hend, hroot]

end Root

section Attributes

theorem dropWhile_name (name : Name) (rest : List Char) :
    (' ' :: (name.text ++ rest)).dropWhile isBlank = name.text ++ rest := by
  obtain ⟨c, cs, hname⟩ := List.exists_cons_of_ne_nil name.ne_nil
  have hc : isBlank c = false := (nameChar_plain (name.plain c (hname ▸ List.mem_cons_self))).1
  have hfront : ∀ d ∈ [' '], isBlank d = true := List.all_eq_true.mp (by decide)
  exact Text.dropWhile_boundary hfront (by simpa [hname] using hc)

theorem attributeNames?_cons (a : Attribute) (rest : List Char) (fuel : Nat) :
    attributeNames? (fuel + 1) (a.written ++ rest) =
      (attributeNames? fuel rest).map (a.name.text :: ·) := by
  have hname : ∀ c ∈ a.name.text, decide (c ≠ '=' ∧ (!isBlank c) = true) = true := by
    intro c hc
    obtain ⟨hblank, -, -, -, -, -, hequals, -⟩ := nameChar_plain (a.name.plain c hc)
    simp [hblank, hequals]
  have hmark : isBlank a.mark = false := by
    rcases a.isMark with h | h <;> rw [h] <;> decide
  have hequals : isBlank '=' = false := by decide
  have hvalue : ∀ c ∈ a.value, decide (c ≠ a.mark) = true := by
    intro c hc
    simpa using fun heq : c = a.mark => a.unmarked (heq ▸ hc)
  have htake : (a.name.text ++ '=' :: a.mark :: (a.value ++ a.mark :: rest)).takeWhile
      (fun c => decide (c ≠ '=' ∧ (!isBlank c) = true)) = a.name.text :=
    Text.takeWhile_boundary hname (by simp)
  have hsplit : a.written ++ rest =
      ' ' :: (a.name.text ++ '=' :: a.mark :: (a.value ++ a.mark :: rest)) := by
    simp [Attribute.written]
  obtain ⟨c, cs, hcs⟩ := List.exists_cons_of_ne_nil a.name.ne_nil
  rw [hsplit, attributeNames?, dropWhile_name]
  split
  · rename_i hnil
    exact absurd (List.append_eq_nil_iff.mp hnil).1 a.name.ne_nil
  · simp only [htake, List.drop_left, List.dropWhile_cons, hequals, hmark, Bool.false_eq_true, if_false]
    rw [if_pos a.isMark, if_pos ⟨by simp, a.name.ne_nil⟩, Text.dropWhile_boundary hvalue (by simp),
      List.drop_succ_cons, List.drop_zero]

theorem attributeNames?_attributesText (attributes : List Attribute) (fuel : Nat)
    (hfuel : attributes.length < fuel) :
    attributeNames? fuel (attributesText attributes) = some (attributes.map (·.name.text)) := by
  induction attributes generalizing fuel with
  | nil =>
    obtain ⟨fuel, rfl⟩ : ∃ n, fuel = n + 1 := ⟨fuel - 1, by omega⟩
    rfl
  | cons a attributes ih =>
    obtain ⟨fuel, rfl⟩ : ∃ n, fuel = n + 1 := ⟨fuel - 1, by omega⟩
    rw [List.length_cons] at hfuel
    rw [attributesText, List.flatMap_cons, ← attributesText, attributeNames?_cons, ih fuel (by omega),
      Option.map_some, List.map_cons]

-- Attributes of different names fit.
theorem attributesFit_attributesText {attributes : List Attribute}
    (h : (attributes.map (·.name.text)).Nodup) : attributesFit (attributesText attributes) = true := by
  have hlength : attributes.length ≤ (attributesText attributes).length := by
    clear h
    induction attributes with
    | nil => exact Nat.le_refl 0
    | cons a attributes ih =>
      rw [attributesText, List.flatMap_cons, ← attributesText, List.length_append,
        Attribute.written, List.length_cons, List.length_cons]
      omega
  rw [attributesFit, attributeNames?_attributesText attributes _ (by omega)]
  exact decide_eq_true h

end Attributes

section Values

-- Without blanks at both ends.
def trimmed (s : String) : String := String.ofList (dropBlanksAtEnd (s.toList.dropWhile isBlank))

-- No blank at either end.
def Snug (s : String) : Prop :=
  ∀ c, s.toList.head? = some c ∨ s.toList.getLast? = some c → isBlank c = false

theorem dropBlanksAtEnd_eq_self_iff {cs : List Char} :
    dropBlanksAtEnd cs = cs ↔ ∀ c ∈ cs.getLast?, isBlank c = false := by
  rw [← List.head?_reverse, ← Text.dropWhile_eq_self_iff, dropBlanksAtEnd]
  constructor
  · intro h
    simpa using congrArg List.reverse h
  · intro h
    rw [h, List.reverse_reverse]

theorem trimmed_eq_iff {s : String} : trimmed s = s ↔ Snug s := by
  have hlists : trimmed s = s ↔ dropBlanksAtEnd (s.toList.dropWhile isBlank) = s.toList := by
    rw [← String.toList_inj, trimmed, String.toList_ofList]
  have hboth : Snug s ↔ s.toList.dropWhile isBlank = s.toList ∧
      dropBlanksAtEnd s.toList = s.toList := by
    rw [Text.dropWhile_eq_self_iff, dropBlanksAtEnd_eq_self_iff]
    exact ⟨fun h => ⟨fun c hc => h c (.inl hc), fun c hc => h c (.inr hc)⟩,
      fun h c hc => hc.elim (h.1 c) (h.2 c)⟩
  rw [hlists, hboth]
  constructor
  · intro h
    have hfront := List.dropWhile_suffix isBlank (l := s.toList)
    have hend : (dropBlanksAtEnd (s.toList.dropWhile isBlank)).length ≤
        (s.toList.dropWhile isBlank).length := by
      have hle := List.length_dropWhile_le isBlank (s.toList.dropWhile isBlank).reverse
      simpa [dropBlanksAtEnd] using hle
    rw [h] at hend
    have hsame := hfront.eq_of_length (Nat.le_antisymm hfront.length_le hend)
    rw [hsame] at h
    exact ⟨hsame, h⟩
  · rintro ⟨hfront, hend⟩
    rw [hfront, hend]

theorem unescape?_escapeChar (c : Char) (rest : List Char) :
    unescape? none (escapeChar c ++ rest) = (unescape? none rest).map (c :: ·) := by
  by_cases hand : c = '&'
  · subst hand
    cases hrest : unescape? none rest <;> simp [escapeChar, unescape?, reference?, hrest]
  by_cases hless : c = '<'
  · subst hless
    cases hrest : unescape? none rest <;> simp [escapeChar, unescape?, reference?, hrest]
  by_cases hgreater : c = '>'
  · subst hgreater
    cases hrest : unescape? none rest <;> simp [escapeChar, unescape?, reference?, hrest]
  · rw [escapeChar, if_neg hand, if_neg hless, if_neg hgreater, List.singleton_append, unescape?,
      if_neg hand]

theorem unescape?_flatMap (cs : List Char) : unescape? none (cs.flatMap escapeChar) = some cs := by
  induction cs with
  | nil => rfl
  | cons c cs ih =>
    rw [List.flatMap_cons, unescape?_escapeChar, ih, Option.map_some]

-- What is written for a character is blank only if the character is.
theorem escapeChar_cases (c : Char) :
    isBlank c = true ∧ escapeChar c = [c] ∨
      isBlank c = false ∧ (∃ d ds, escapeChar c = d :: ds ∧ isBlank d = false) ∧
        ∃ d ds, (escapeChar c).reverse = d :: ds ∧ isBlank d = false := by
  unfold escapeChar
  split
  · rename_i hc
    subst hc
    exact .inr ⟨by decide, ⟨_, _, rfl, by decide⟩, ⟨_, _, rfl, by decide⟩⟩
  · split
    · rename_i hc
      subst hc
      exact .inr ⟨by decide, ⟨_, _, rfl, by decide⟩, ⟨_, _, rfl, by decide⟩⟩
    · split
      · rename_i hc
        subst hc
        exact .inr ⟨by decide, ⟨_, _, rfl, by decide⟩, ⟨_, _, rfl, by decide⟩⟩
      · cases hblank : isBlank c with
        | true => exact .inl ⟨rfl, rfl⟩
        | false => exact .inr ⟨rfl, ⟨c, [], rfl, hblank⟩, ⟨c, [], rfl, hblank⟩⟩

theorem dropWhile_flatMap (cs : List Char) :
    (cs.flatMap escapeChar).dropWhile isBlank = (cs.dropWhile isBlank).flatMap escapeChar := by
  induction cs with
  | nil => rfl
  | cons c cs ih =>
    rcases escapeChar_cases c with ⟨hblank, hc⟩ | ⟨hblank, ⟨d, ds, hc, hd⟩, -⟩
    · rw [List.flatMap_cons, hc, List.singleton_append, List.dropWhile_cons, if_pos hblank,
        List.dropWhile_cons, if_pos hblank, ih]
    · rw [List.dropWhile_cons, if_neg (by rw [hblank]; decide), List.flatMap_cons, hc,
        List.cons_append, List.dropWhile_cons, if_neg (by rw [hd]; decide)]

theorem dropBlanksAtEnd_flatMap (cs : List Char) :
    dropBlanksAtEnd (cs.flatMap escapeChar) = (dropBlanksAtEnd cs).flatMap escapeChar := by
  induction cs using List.reverseRecOn with
  | nil => rfl
  | append_singleton cs c ih =>
    rcases escapeChar_cases c with ⟨hblank, hc⟩ | ⟨hblank, -, ⟨d, ds, hc, hd⟩⟩
    · rw [List.flatMap_append, List.flatMap_singleton, hc]
      simp only [dropBlanksAtEnd, List.reverse_append, List.reverse_singleton,
        List.singleton_append, List.dropWhile_cons, hblank, if_true] at ih ⊢
      exact ih
    · rw [List.flatMap_append, List.flatMap_singleton]
      simp only [dropBlanksAtEnd, List.reverse_append, List.reverse_singleton, hc, List.cons_append,
        List.nil_append, List.dropWhile_cons, hd, hblank, Bool.false_eq_true, if_false]
      rw [← List.cons_append, ← hc]
      simp

theorem textValue?_escape (s : String) :
    textValue? [⟨escape s, false⟩] = some (trimmed s).toList := by
  have hvalue : textValue? [⟨escape s, false⟩] =
      unescape? none (dropBlanksAtEnd ((escape s).dropWhile isBlank)) := by
    simp only [textValue?, trimFirst, trimLast, Bool.false_eq_true, if_false,
      List.reverse_singleton, List.mapM_cons, List.mapM_nil, Piece.value?]
    cases unescape? none (dropBlanksAtEnd ((escape s).dropWhile isBlank)) <;> simp
  rw [hvalue, escape, dropWhile_flatMap, dropBlanksAtEnd_flatMap, unescape?_flatMap, trimmed,
    String.toList_ofList]

theorem escape_eq_nil_iff {s : String} : escape s = [] ↔ s = "" := by
  constructor
  · intro h
    have hunescape := unescape?_flatMap s.toList
    rw [← escape, h] at hunescape
    exact String.toList_inj.mp (Option.some.inj hunescape).symm
  · rintro rfl
    rfl

theorem stringValue?_escape (s : String) : stringValue? (textNodes (escape s)) = some (trimmed s) := by
  unfold textNodes
  split
  · rename_i hnil
    rw [escape_eq_nil_iff.mp hnil]
    rfl
  · rw [stringValue?, textValue?_escape, Option.map_some, String.ofList_toList]

theorem textsFit_textNodes (s : String) : textsFit (textNodes (escape s)) = true := by
  unfold textNodes
  split
  · rfl
  · simp only [textsFit, List.all_cons, List.all_nil, textValue?_escape, Option.isSome_some,
      Bool.and_true]

theorem textsFit_append (front behind : List Node) :
    textsFit (front ++ behind) = (textsFit front && textsFit behind) := List.all_append

-- Every text that was written can be read.
theorem Content.textsFit_nodes (content : Content) : textsFit content.nodes = true := by
  induction content with
  | text s => exact textsFit_textNodes s
  | element before name attributes inner rest _ ih =>
    rw [Content.nodes, textsFit_append, textsFit_textNodes]
    exact ih
  | alone before name attributes rest ih =>
    rw [Content.nodes, textsFit_append, textsFit_textNodes]
    exact ih

end Values

end BlobStorage.Xml
