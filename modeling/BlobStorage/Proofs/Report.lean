import BlobStorage.Proofs.Text.Split
import BlobStorage.Failure
import Mathlib.Data.List.Infix

-- What the line of a report says of a chain of causes: every message is in it, and those that have an
-- entry of their own are set apart as long as no empty message comes between them.
namespace BlobStorage.Report

theorem endsWith_iff {text ending : List Char} : endsWith text ending = true ↔ ending <:+ text := by
  rw [endsWith, List.isPrefixOf_iff_prefix, List.reverse_prefix]

-- How the causes behind a message are told: each is left out, if that message ends with it, or has an
-- entry of its own.
inductive Told : String → List String → List Char → Prop
  | nil (previous : String) : Told previous [] []
  | leftOut {previous message : String} {causes : List String} {body : List Char}
      (hend : message.toList <:+ previous.toList) (hmore : Told message causes body) :
      Told previous (message :: causes) body
  | entry {previous message : String} {causes : List String} {separator body : List Char}
      (hseparator : separator = [] ∨ separator = ": ".toList) (hmore : Told message causes body) :
      Told previous (message :: causes) (separator ++ (message.toList ++ body))

-- Messages that are no end of the one in front of them, with that one.
def printedBehind (previous : String) (causes : List String) : List (String × String) :=
  ((previous :: causes).zip causes).filter fun (before, message) => ¬ message.toList <:+ before.toList

-- Nothing is in front of the first message.
def printed (chain : List String) : List (String × String) := printedBehind "" chain

-- The printed messages with one separator between any two of them.
def joined (chain : List String) : String :=
  "Error: " ++ ": ".intercalate ((printed chain).map Prod.snd) ++ "\n"

-- An empty message with another one right behind it.
def Gap (causes : List String) : Prop :=
  ∃ front message behind, causes = front ++ "" :: message :: behind ∧ message ≠ ""

-- Such a gap behind a message that is not empty.
def RunsTogether (chain : List String) : Prop :=
  ∃ front first rest, chain = front ++ first :: rest ∧ first ≠ "" ∧ Gap rest

section Line

variable {previous message : String} {causes : List String}

theorem line_leftOut (h : message.toList <:+ previous.toList) :
    line previous.toList ((message :: causes).map String.toList) =
      line message.toList (causes.map String.toList) := by
  rw [List.map_cons, line, if_pos (endsWith_iff.mpr h), List.nil_append]

-- Whether there is a separator depends on the message in front alone.
theorem line_entry (h : ¬ message.toList <:+ previous.toList) :
    line previous.toList ((message :: causes).map String.toList) =
      (if previous = "" then [] else ": ".toList) ++
        (message.toList ++ line message.toList (causes.map String.toList)) := by
  have hempty : previous.toList = [] ↔ previous = "" := String.toList_eq_nil_iff
  simp only [List.map_cons, line, endsWith_iff, if_neg h, hempty, List.append_assoc]
  rfl

theorem line_told (previous : String) (causes : List String) :
    Told previous causes (line previous.toList (causes.map String.toList)) := by
  induction causes generalizing previous with
  | nil => exact .nil previous
  | cons message causes ih =>
    by_cases h : message.toList <:+ previous.toList
    · rw [line_leftOut h]
      exact .leftOut h (ih message)
    · rw [line_entry h]
      refine .entry ?_ (ih message)
      split
      · exact .inl rfl
      · exact .inr rfl

-- The message in front is somewhere in what is already told, so that one left out is there too.
theorem Told.infix {body front : List Char} (h : Told previous causes body)
    (hfront : previous.toList <:+: front) :
    ∀ message ∈ causes, message.toList <:+: front ++ body := by
  induction h generalizing front with
  | nil previous => exact fun message hmem => absurd hmem List.not_mem_nil
  | @leftOut previous message causes body hend hmore ih =>
    have hmessage : message.toList <:+: front := hend.isInfix.trans hfront
    intro other hother
    rcases List.mem_cons.mp hother with rfl | hother
    · exact hmessage.trans (List.prefix_append front body).isInfix
    · exact ih hmessage other hother
  | @entry previous message causes separator body hseparator hmore ih =>
    have hmessage : message.toList <:+: front ++ separator ++ message.toList :=
      (List.suffix_append _ _).isInfix
    have hsplit : front ++ (separator ++ (message.toList ++ body)) =
        front ++ separator ++ message.toList ++ body := by simp only [List.append_assoc]
    rw [hsplit]
    intro other hother
    rcases List.mem_cons.mp hother with rfl | hother
    · exact hmessage.trans (List.prefix_append _ body).isInfix
    · exact ih hmessage other hother

end Line

-- The line names every cause: as an entry of its own, unless the cause in front of it ends with it.
theorem text_tells (chain : List String) :
    ∃ body, text chain = "Error: " ++ String.ofList body ++ "\n" ∧ Told "" chain body ∧
      ∀ message ∈ chain, message.toList <:+: body := by
  have htold := line_told "" chain
  have hinfix : ∀ message ∈ chain, message.toList <:+: [] ++ _ := htold.infix List.nil_infix
  exact ⟨_, rfl, htold, hinfix⟩

section Separators

variable {previous message first : String} {causes rest : List String}

theorem printedBehind_leftOut (h : message.toList <:+ previous.toList) :
    printedBehind previous (message :: causes) = printedBehind message causes := by
  rw [printedBehind, List.zip_cons_cons, List.filter_cons_of_neg (by simpa using h), ← printedBehind]

theorem printedBehind_entry (h : ¬ message.toList <:+ previous.toList) :
    printedBehind previous (message :: causes) = (previous, message) :: printedBehind message causes := by
  rw [printedBehind, List.zip_cons_cons, List.filter_cons_of_pos (by simpa using h), ← printedBehind]

theorem not_gap_nil : ¬ Gap [] := by
  rintro ⟨front, message, behind, h, -⟩
  exact absurd h.symm (List.append_ne_nil_of_right_ne_nil _ (List.cons_ne_nil _ _))

theorem not_gap_singleton : ¬ Gap [message] := by
  rintro ⟨front, other, behind, h, -⟩
  have hlength := congrArg List.length h
  rw [List.length_singleton, List.length_append, List.length_cons, List.length_cons] at hlength
  omega

theorem gap_cons_cons : Gap (previous :: message :: causes) ↔
    previous = "" ∧ message ≠ "" ∨ Gap (message :: causes) := by
  constructor
  · rintro ⟨front, other, behind, h, hother⟩
    cases front with
    | nil =>
      obtain ⟨hprevious, hmore⟩ := List.cons.inj h
      exact .inl ⟨hprevious, (List.cons.inj hmore).1 ▸ hother⟩
    | cons x front => exact .inr ⟨front, other, behind, (List.cons.inj h).2, hother⟩
  · rintro (⟨rfl, hmessage⟩ | ⟨front, other, behind, h, hother⟩)
    · exact ⟨[], message, causes, rfl, hmessage⟩
    · exact ⟨previous :: front, other, behind, by rw [h, List.cons_append], hother⟩

theorem gap_cons_of_ne (h : message ≠ "") : Gap (message :: causes) ↔ Gap causes := by
  cases causes with
  | nil => exact iff_of_false not_gap_singleton not_gap_nil
  | cons next causes => rw [gap_cons_cons, or_iff_right fun hempty => h hempty.1]

theorem Gap.append (h : Gap rest) (front : List String) : Gap (front ++ rest) := by
  obtain ⟨between, message, behind, rfl, hmessage⟩ := h
  exact ⟨front ++ between, message, behind, (List.append_assoc ..).symm, hmessage⟩

theorem runsTogether_empty : RunsTogether ("" :: causes) ↔ RunsTogether causes := by
  constructor
  · rintro ⟨front, first, rest, h, hfirst, hgap⟩
    cases front with
    | nil => exact absurd (List.cons.inj h).1.symm hfirst
    | cons x front => exact ⟨front, first, rest, (List.cons.inj h).2, hfirst, hgap⟩
  · rintro ⟨front, first, rest, rfl, hfirst, hgap⟩
    exact ⟨"" :: front, first, rest, rfl, hfirst, hgap⟩

theorem runsTogether_of_ne (h : message ≠ "") : RunsTogether (message :: causes) ↔ Gap causes := by
  constructor
  · rintro ⟨front, first, rest, hchain, hfirst, hgap⟩
    rw [← gap_cons_of_ne h, hchain]
    exact ((gap_cons_of_ne hfirst).mpr hgap).append front
  · exact fun hgap => ⟨[], message, causes, rfl, h, hgap⟩

-- Each entry is as it is printed, behind a separator unless the message in front is empty.
theorem line_printed (previous : String) (causes : List String) :
    line previous.toList (causes.map String.toList) = (printedBehind previous causes).flatMap
      fun entry => ((if entry.1 = "" then "" else ": ") ++ entry.2).toList := by
  induction causes generalizing previous with
  | nil => rfl
  | cons message causes ih =>
    by_cases h : message.toList <:+ previous.toList
    · rw [line_leftOut h, printedBehind_leftOut h, ih]
    · rw [line_entry h, printedBehind_entry h, List.flatMap_cons, ih, String.toList_append,
        apply_ite String.toList, String.toList_empty, List.append_assoc]

-- The entries behind one that is printed, each with a separator.
def separated (previous : String) (causes : List String) : List Char :=
  (printedBehind previous causes).flatMap fun entry => ": ".toList ++ entry.2.toList

theorem separated_leftOut (h : message.toList <:+ previous.toList) :
    separated previous (message :: causes) = separated message causes := by
  rw [separated, printedBehind_leftOut h, ← separated]

theorem separated_entry (h : ¬ message.toList <:+ previous.toList) :
    separated previous (message :: causes) =
      ": ".toList ++ (message.toList ++ separated message causes) := by
  rw [separated, printedBehind_entry h, List.flatMap_cons, ← separated, List.append_assoc]

theorem ne_empty_of_entry (h : ¬ message.toList <:+ previous.toList) : message ≠ "" := by
  rintro rfl
  exact h List.nil_suffix

-- Nothing but separators can be missing.
theorem length_line_le (previous : String) (causes : List String) :
    (line previous.toList (causes.map String.toList)).length ≤ (separated previous causes).length := by
  induction causes generalizing previous with
  | nil => exact Nat.le_refl 0
  | cons message causes ih =>
    by_cases h : message.toList <:+ previous.toList
    · rw [line_leftOut h, separated_leftOut h]
      exact ih message
    · rw [line_entry h, separated_entry h, List.length_append, List.length_append,
        List.length_append, List.length_append]
      have hseparator : (if previous = "" then [] else ": ".toList).length ≤ ": ".toList.length := by
        split
        · exact Nat.zero_le _
        · exact Nat.le_refl _
      exact Nat.add_le_add hseparator (Nat.add_le_add_left (ih message) _)

-- Behind an entry no separator is missing exactly if there is no gap.
theorem line_eq_separated_iff (previous : String) (causes : List String) :
    line previous.toList (causes.map String.toList) = separated previous causes ↔
      ¬ Gap (previous :: causes) := by
  induction causes generalizing previous with
  | nil => exact iff_of_true rfl not_gap_singleton
  | cons message causes ih =>
    rw [gap_cons_cons]
    by_cases h : message.toList <:+ previous.toList
    · have hnone : ¬ (previous = "" ∧ message ≠ "") := by
        rintro ⟨rfl, hmessage⟩
        exact hmessage (String.toList_eq_nil_iff.mp (List.suffix_nil.mp h))
      rw [line_leftOut h, separated_leftOut h, ih, or_iff_right hnone]
    · have hmessage := ne_empty_of_entry h
      rw [line_entry h, separated_entry h]
      by_cases hprevious : previous = ""
      · rw [if_pos hprevious, List.nil_append]
        refine iff_of_false (fun heq => ?_) (not_not_intro (.inl ⟨hprevious, hmessage⟩))
        have hlength := congrArg List.length heq
        have hle := length_line_le message causes
        have htwo : ": ".toList.length = 2 := rfl
        rw [List.length_append, List.length_append, List.length_append, htwo] at hlength
        omega
      · rw [if_neg hprevious, List.append_cancel_left_eq, List.append_cancel_left_eq, ih,
          or_iff_right fun hempty => hprevious hempty.1]

-- The first entry has no separator in either.
theorem line_eq_joined_iff (chain : List String) :
    line [] (chain.map String.toList) =
      ": ".toList.intercalate ((printed chain).map fun entry => entry.2.toList) ↔
      ¬ RunsTogether chain := by
  induction chain with
  | nil =>
    refine iff_of_true rfl ?_
    rintro ⟨front, first, rest, h, -⟩
    exact absurd h.symm (List.append_ne_nil_of_right_ne_nil _ (List.cons_ne_nil _ _))
  | cons message causes ih =>
    by_cases hmessage : message = ""
    · subst hmessage
      have hend : "".toList <:+ "".toList := List.suffix_rfl
      rw [printed, printedBehind_leftOut hend, ← printed, runsTogether_empty, ← ih, ← String.toList_empty,
        line_leftOut hend]
    · have hentry : ¬ message.toList <:+ "".toList := fun h =>
        hmessage (String.toList_eq_nil_iff.mp (List.suffix_nil.mp h))
      have hjoined : ": ".toList.intercalate ((printed (message :: causes)).map
          fun entry => entry.2.toList) = message.toList ++ separated message causes := by
        rw [printed, printedBehind_entry hentry, List.map_cons, Text.intercalate_cons_eq_flatMap,
          List.flatMap_map, separated]
      rw [hjoined, ← String.toList_empty, line_entry hentry, if_pos rfl, List.nil_append,
        List.append_cancel_left_eq, line_eq_separated_iff, gap_cons_of_ne hmessage,
        runsTogether_of_ne hmessage]

end Separators

-- What is printed is each message that is no end of the one in front, with a separator unless that one
-- is empty. So the messages are joined by separators as long as none of them comes right behind an
-- empty one that is itself behind another. There the two run together.
theorem text_eq_joined_iff (chain : List String) :
    text chain = "Error: " ++ String.join ((printed chain).map fun entry =>
      (if entry.1 = "" then "" else ": ") ++ entry.2) ++ "\n" ∧
    (text chain = joined chain ↔ ¬ RunsTogether chain) := by
  have hmap : (printed chain).map (fun entry => entry.2.toList) =
      ((printed chain).map Prod.snd).map String.toList := by
    rw [List.map_map]
    rfl
  constructor
  · rw [text, ← String.toList_empty, line_printed, ← printed, ← List.flatMap_map,
      ← String.toList_join, String.ofList_toList]
  · rw [← line_eq_joined_iff, hmap, ← String.toList_intercalate, text, joined, ← String.toList_inj,
      String.toList_append, String.toList_append, String.toList_append, String.toList_append,
      List.append_cancel_right_eq, List.append_cancel_left_eq, String.toList_ofList]

theorem text_runsTogether :
    text ["a", "", "b"] = "Error: ab\n" ∧ joined ["a", "", "b"] = "Error: a: b\n" := by
  decide

end BlobStorage.Report
