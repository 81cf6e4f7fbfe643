import BlobStorage.Command.Basic
import BlobStorage.Time.Written

-- The command line: `-c FILE` or `--config FILE`, then a command and its operands. Operands that look
-- like options stand behind `--`.
namespace BlobStorage.Command

-- Why a command line is not carried out. Requests for help and for the version end well.
inductive Refusal where
  | help
  | version
  | usage
  deriving DecidableEq, Repr

def Refusal.exitCode : Refusal → Nat
  | .help => 0
  | .version => 0
  | .usage => 2

structure Invocation where
  config : String
  command : Command
  deriving DecidableEq, Repr

inductive Operand where
  | text
  | path
  | span
  deriving DecidableEq, Repr

def Operand.accepts : Operand → String → Bool
  | .text, _ => true
  | .path, s => s ≠ ""
  | .span, s => (Span.parse s).toBool

-- The operands of each command, how many of them are required, and the command that they make.
structure Form where
  operands : List Operand
  required : Nat
  build : List String → Option Command

def formOf? : String → Option Form
  | "put" => some ⟨[.path, .text], 2, fun
    | [source, dest] => some (.put source dest)
    | _ => none⟩
  | "get" => some ⟨[.text, .path], 2, fun
    | [source, dest] => some (.get source dest)
    | _ => none⟩
  | "delete" => some ⟨[.text], 1, fun
    | [key] => some (.delete key)
    | _ => none⟩
  | "delete-recursive" => some ⟨[.text], 0, fun
    | [under] => some (.deleteRecursive under)
    | _ => some (.deleteRecursive "")⟩
  | "exists" => some ⟨[.text], 1, fun
    | [key] => some (.exist key)
    | _ => none⟩
  | "sign" => some ⟨[.text, .text, .span], 3, fun
    | [key, action, validity] => (Span.parse validity).toOption.map (.sign key action)
    | _ => none⟩
  | "list" => some ⟨[.text], 0, fun
    | [under] => some (.list under)
    | _ => some (.list "")⟩
  | "copy" => some ⟨[.text, .text], 2, fun
    | [source, dest] => some (.copy source dest)
    | _ => none⟩
  | _ => none

-- One dash alone is a value.
def isOption (arg : String) : Bool := ['-'].isPrefixOf arg.toList && arg ≠ "-"

-- Help may be asked for by a long option, or by a letter in front of any others.
def asksHelp (arg : String) : Bool := arg == "--help" || ['-', 'h'].isPrefixOf arg.toList

def asksVersion (arg : String) : Bool := arg == "--version" || ['-', 'V'].isPrefixOf arg.toList

-- The operands behind a command. Each is checked against the next place that is left; behind `--`
-- everything is an operand.
def operands : Bool → List Operand → List String → Except Refusal (List String)
  | _, _, [] => .ok []
  | literal, places, arg :: rest =>
    if !literal && arg == "--" then operands true places rest
    else if !literal && isOption arg then .error (if asksHelp arg then .help else .usage)
    else
      match places with
      | [] => .error .usage
      | place :: places =>
        if place.accepts arg then (operands literal places rest).map (arg :: ·) else .error .usage

def ofOperands (form : Form) (args : List String) : Except Refusal Command := do
  let values ← operands false form.operands args
  if values.length < form.required then .error .usage
  else
    match form.build values with
    | some command => .ok command
    | none => .error .usage

-- The options in front of the command. An option's value is only looked at when the next one comes,
-- or when the command has been read.
structure Front where
  config : Option String := none
  -- An option that still waits for its value, or one whose value was not looked at yet.
  pending : Option (Option String) := none

namespace Front

-- A path must be given once and must not be empty.
def take (front : Front) (value : String) : Except Refusal Front :=
  if front.config.isSome ∨ value = "" then .error .usage
  else .ok { config := some value, pending := none }

def settle (front : Front) : Except Refusal Front :=
  match front.pending with
  | none => .ok front
  | some none => .error .usage
  | some (some value) => ({ front with pending := none } : Front).take value

def attach (front : Front) (value : String) : Except Refusal Front := do
  let front ← front.settle
  front.take value

def await (front : Front) : Except Refusal Front := do
  let front ← front.settle
  .ok { front with pending := some none }

def isWaiting (front : Front) : Bool := front.pending == some none

def option (front : Front) (arg : String) : Except Refusal Front :=
  match arg.toList with
  | ['-', '-', 'c', 'o', 'n', 'f', 'i', 'g'] => front.await
  | '-' :: '-' :: 'c' :: 'o' :: 'n' :: 'f' :: 'i' :: 'g' :: '=' :: value =>
    front.attach (String.ofList value)
  | ['-', 'c'] => front.await
  | '-' :: 'c' :: '=' :: value => front.attach (String.ofList value)
  | '-' :: 'c' :: value => front.attach (String.ofList value)
  | _ => do
    let _ ← front.settle
    .error (if asksHelp arg then .help else if asksVersion arg then .version else .usage)

end Front

-- The command `help` may be followed by the name of one command.
def helpOn : List String → Refusal
  | [] => .help
  | [name] => if (formOf? name).isSome ∨ name = "help" then .help else .usage
  | _ => .usage

def parseFrom (front : Front) : List String → Except Refusal Invocation
  | [] => .error .usage
  | arg :: rest =>
    if front.isWaiting && !isOption arg then
      parseFrom { front with pending := some (some arg) } rest
    else
      match if front.isWaiting then none else formOf? arg with
      | some form => do
        let command ← ofOperands form rest
        let front ← front.settle
        match front.config with
        | some config => .ok ⟨config, command⟩
        | none => .error .usage
      | none =>
        if arg = "help" then .error (helpOn rest)
        else if isOption arg && arg ≠ "--" then
          match front.option arg with
          | .ok front => parseFrom front rest
          | .error refusal => .error refusal
        else .error .usage

def parse (args : List String) : Except Refusal Invocation := parseFrom {} args

end BlobStorage.Command
