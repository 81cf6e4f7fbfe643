import BlobStorage.Command.Arguments
import Mathlib.Control.Monad.Basic

-- Command lines as they are written. A command is read back as it was, and behind `--` its texts may
-- look like anything.
namespace BlobStorage.Command

-- The texts that a command is written with, in the order of its operands. A span has many texts.
inductive Fields : Command → List String → Prop
  | put (source dest : String) : Fields (.put source dest) [source, dest]
  | get (source dest : String) : Fields (.get source dest) [source, dest]
  | delete (key : String) : Fields (.delete key) [key]
  | deleteRecursive (under : String) : Fields (.deleteRecursive under) [under]
  | exist (key : String) : Fields (.exist key) [key]
  | sign (key action : String) {text : String} {validity : Span}
    (h : Span.parse text = .ok validity) : Fields (.sign key action validity) [key, action, text]
  | list (under : String) : Fields (.list under) [under]
  | copy (source dest : String) : Fields (.copy source dest) [source, dest]

-- The local file that a command reads or writes.
def path? : Command → Option String
  | .put source _ => some source
  | .get _ dest => some dest
  | _ => none

section Operands

-- Texts that are what their places ask for. Places at the end may be left empty.
inductive Fits : List Operand → List String → Prop
  | nil (places : List Operand) : Fits places []
  | cons {place : Operand} {places : List Operand} {field : String} {fields : List String}
    (haccepts : place.accepts field = true) (hmore : Fits places fields) :
    Fits (place :: places) (field :: fields)

variable {literal : Bool} {places : List Operand} {fields : List String}

theorem isOption_eq_false_iff {arg : String} :
    isOption arg = false ↔ (['-'] <+: arg.toList → arg = "-") := by
  rw [← Bool.not_eq_true, isOption, Bool.and_eq_true, List.isPrefixOf_iff_prefix, decide_eq_true_iff,
    not_and, not_not]

-- Behind `--` a text is not looked at before it is taken; in front of it, it must not be an option.
theorem operands_of_fits (hfits : Fits places fields)
    (hplain : literal = false → ∀ field ∈ fields, isOption field = false) :
    operands literal places fields = .ok fields := by
  induction hfits with
  | nil places => rfl
  | @cons place places field fields haccepts hmore ih =>
    have hfield : (!literal && isOption field) = false := by
      cases literal with
      | false => rw [hplain rfl field List.mem_cons_self]; rfl
      | true => rfl
    have hseparator : (!literal && field == "--") = false := by
      cases literal with
      | false =>
        have hne : field ≠ "--" := by
          rintro rfl
          exact absurd (hplain rfl "--" List.mem_cons_self) (by decide)
        simp [hne]
      | true => rfl
    have hrest := ih fun hliteral other hother =>
      hplain hliteral other (List.mem_cons_of_mem _ hother)
    simp only [operands, hseparator, hfield, haccepts, hrest, Bool.false_eq_true, if_false, if_true,
      Except.map]

theorem operands_separator (places : List Operand) (fields : List String) :
    operands false places ("--" :: fields) = operands true places fields := by
  rw [operands.eq_def]
  rfl

end Operands

section Forms

variable {command : Command} {fields : List String}

-- No command's name begins with a dash.
theorem not_isOption_of_formOf? {arg : String} {form : Form} (h : formOf? arg = some form) :
    isOption arg = false := by
  unfold formOf? at h
  split at h
  case h_9 => exact nomatch h
  all_goals decide

theorem exists_form (hfields : Fields command fields) (hpath : command.path? ≠ some "") :
    ∃ form, formOf? command.name = some form ∧ Fits form.operands fields ∧
      form.required ≤ fields.length ∧ form.build fields = some command := by
  have hspelled : ∀ {path : String}, some path ≠ some "" → Operand.path.accepts path = true :=
    fun h => decide_eq_true fun hempty => h (congrArg some hempty)
  cases hfields with
  | put source dest =>
    exact ⟨_, rfl, .cons (hspelled hpath) (.cons rfl (.nil _)), Nat.le_refl 2, rfl⟩
  | get source dest =>
    exact ⟨_, rfl, .cons rfl (.cons (hspelled hpath) (.nil _)), Nat.le_refl 2, rfl⟩
  | delete key => exact ⟨_, rfl, .cons rfl (.nil _), Nat.le_refl 1, rfl⟩
  | deleteRecursive under => exact ⟨_, rfl, .cons rfl (.nil _), Nat.zero_le 1, rfl⟩
  | exist key => exact ⟨_, rfl, .cons rfl (.nil _), Nat.le_refl 1, rfl⟩
  | @sign key action text validity hspan =>
    have haccepts : Operand.span.accepts text = true := by
      rw [Operand.accepts, hspan]
      rfl
    refine ⟨_, rfl, .cons rfl (.cons rfl (.cons haccepts (.nil _))), Nat.le_refl 3, ?_⟩
    show (Span.parse text).toOption.map (Command.sign key action) = some (.sign key action validity)
    rw [hspan]
    rfl
  | list under => exact ⟨_, rfl, .cons rfl (.nil _), Nat.zero_le 1, rfl⟩
  | copy source dest => exact ⟨_, rfl, .cons rfl (.cons rfl (.nil _)), Nat.le_refl 2, rfl⟩

theorem ofOperands_of_ok {form : Form} {args : List String}
    (hvalues : operands false form.operands args = .ok fields)
    (hrequired : form.required ≤ fields.length) (hbuild : form.build fields = some command) :
    ofOperands form args = .ok command := by
  have henough : ¬ fields.length < form.required := Nat.not_lt_of_le hrequired
  simp only [ofOperands, hvalues, bind, Except.bind, if_neg henough, hbuild]

end Forms

section Front

variable {front next : Front} {arg : String} {rest : List String}

theorem parseFrom_option (hwaiting : front.isWaiting = false) (harg : isOption arg = true)
    (hseparator : arg ≠ "--") (hnext : front.option arg = .ok next) :
    parseFrom front (arg :: rest) = parseFrom next rest := by
  have hform : formOf? arg = none := by
    refine Option.eq_none_iff_forall_ne_some.mpr fun form h => ?_
    rw [not_isOption_of_formOf? h] at harg
    exact nomatch harg
  have hhelp : arg ≠ "help" := by
    rintro rfl
    exact absurd harg (by decide)
  rw [parseFrom]
  simp [hwaiting, hform, hhelp, harg, hseparator, hnext]

theorem parseFrom_command {form : Form} {command : Command} {config : String}
    (hwaiting : front.isWaiting = false) (hform : formOf? arg = some form)
    (hcommand : ofOperands form rest = .ok command) (hsettled : front.settle = .ok next)
    (hconfig : next.config = some config) :
    parseFrom front (arg :: rest) = .ok ⟨config, command⟩ := by
  rw [parseFrom]
  simp [hwaiting, hform, hcommand, hsettled, hconfig, bind, Except.bind]

theorem toList_config (config : String) :
    ("--config=" ++ config).toList =
      '-' :: '-' :: 'c' :: 'o' :: 'n' :: 'f' :: 'i' :: 'g' :: '=' :: config.toList := by
  rw [String.toList_append]
  rfl

theorem config_ne {config other : String} (h : other.toList.length < 9) :
    "--config=" ++ config ≠ other := by
  rintro rfl
  rw [toList_config] at h
  simp only [List.length_cons] at h
  omega

theorem isOption_config (config : String) : isOption ("--config=" ++ config) = true := by
  rw [← Bool.not_eq_false, isOption_eq_false_iff, toList_config]
  exact fun h => config_ne (by decide) (h ⟨_, rfl⟩)

-- The path is everything behind the first equals sign.
theorem option_config {config : String} (hconfig : config ≠ "") :
    Front.option {} ("--config=" ++ config) = .ok { config := some config } := by
  have htaken : ¬ (none : Option String).isSome = true ∧ config ≠ "" := ⟨nofun, hconfig⟩
  rw [Front.option, toList_config]
  simp only [String.ofList_toList, Front.attach, Front.settle, bind, Except.bind, Front.take]
  rw [if_neg (not_or.mpr htaken)]

theorem parse_config {config : String} {form : Form} {command : Command} (hconfig : config ≠ "")
    (hform : formOf? arg = some form) (hcommand : ofOperands form rest = .ok command) :
    parse (("--config=" ++ config) :: arg :: rest) = .ok ⟨config, command⟩ := by
  rw [parse, parseFrom_option rfl (isOption_config config) (config_ne (by decide))
    (option_config hconfig)]
  exact parseFrom_command rfl hform hcommand rfl rfl

end Front

section Written

variable {config : String} {command : Command} {fields : List String}

-- What is written is read back: the configuration, the command's name, and its texts behind `--`, which
-- may be left out if none of them looks like an option.
theorem parse_written (hconfig : config ≠ "") (hpath : command.path? ≠ some "")
    (hfields : Fields command fields) :
    parse (("--config=" ++ config) :: command.name :: "--" :: fields) = .ok ⟨config, command⟩ ∧
      ((∀ field ∈ fields, ['-'] <+: field.toList → field = "-") →
        parse (("--config=" ++ config) :: command.name :: fields) = .ok ⟨config, command⟩) := by
  obtain ⟨form, hform, hfits, hrequired, hbuild⟩ := exists_form hfields hpath
  have hread : ∀ args, operands false form.operands args = .ok fields →
      parse (("--config=" ++ config) :: command.name :: args) = .ok ⟨config, command⟩ :=
    fun _ hvalues => parse_config hconfig hform (ofOperands_of_ok hvalues hrequired hbuild)
  refine ⟨hread _ ?_, fun hplain => hread _ ?_⟩
  · rw [operands_separator]
    exact operands_of_fits hfits nofun
  · exact operands_of_fits hfits fun _ field hfield => isOption_eq_false_iff.mpr (hplain field hfield)

-- Behind `--`, texts that look like an option and like the separator itself; without it, a dash alone
-- and the name of a command.
theorem parse_written_dashes :
    ("=c.json" ≠ "" ∧ (Command.put "--" "-h").path? ≠ some "" ∧
      Fields (.put "--" "-h") ["--", "-h"] ∧
      parse ["--config==c.json", "put", "--", "--", "-h"] = .ok ⟨"=c.json", .put "--" "-h"⟩) ∧
      (Command.sign "-" "copy" (.ofSeconds 5400)).path? ≠ some "" ∧
      Fields (.sign "-" "copy" (.ofSeconds 5400)) ["-", "copy", "1h30m"] ∧
      (∀ field ∈ ["-", "copy", "1h30m"], ['-'] <+: field.toList → field = "-") ∧
      parse ["--config==c.json", "sign", "-", "copy", "1h30m"] =
        .ok ⟨"=c.json", .sign "-" "copy" (.ofSeconds 5400)⟩ := by
  have hconfig : "=c.json" ≠ "" := by decide
  have hput : (Command.put "--" "-h").path? ≠ some "" := by decide
  have hsign : (Command.sign "-" "copy" (.ofSeconds 5400)).path? ≠ some "" := by decide
  have hspan : Span.parse "1h30m" = .ok (.ofSeconds 5400) := by decide +kernel
  have hplain : ∀ field ∈ ["-", "copy", "1h30m"], ['-'] <+: field.toList → field = "-" := by decide
  exact ⟨⟨hconfig, hput, .put _ _, (parse_written hconfig hput (.put _ _)).1⟩, hsign, .sign _ _ hspan,
    hplain, (parse_written hconfig hsign (.sign _ _ hspan)).2 hplain⟩

end Written

end BlobStorage.Command
