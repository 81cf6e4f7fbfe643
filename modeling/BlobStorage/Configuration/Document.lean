import BlobStorage.Configuration.Basic
import BlobStorage.Json.Value

-- Configurations as JSON documents: an object whose keys may come in any order and among others that
-- do not count, or a list of the values in order.
namespace BlobStorage.Configuration

inductive Field where
  | accountName
  | accountKey
  | containerName
  | environment
  | getTimeout
  | putTimeout
  deriving DecidableEq, Repr

namespace Field

def all : List Field :=
  [accountName, accountKey, containerName, environment, getTimeout, putTimeout]

def name : Field → String
  | accountName => "account_name"
  | accountKey => "account_key"
  | containerName => "container_name"
  | environment => "environment"
  | getTimeout => "signed_url_get_timeout"
  | putTimeout => "signed_url_put_timeout"

def ofName? (s : String) : Option Field := all.find? (·.name == s)

end Field

structure Draft where
  accountName : Option String := none
  accountKey : Option String := none
  containerName : Option String := none
  environment : Option Environment := none
  getTimeout : Option Nat := none
  putTimeout : Option Nat := none

namespace Draft

def has (draft : Draft) : Field → Bool
  | .accountName => draft.accountName.isSome
  | .accountKey => draft.accountKey.isSome
  | .containerName => draft.containerName.isSome
  | .environment => draft.environment.isSome
  | .getTimeout => draft.getTimeout.isSome
  | .putTimeout => draft.putTimeout.isSome

def missing? (draft : Draft) : Option Field :=
  [Field.accountName, .accountKey, .containerName].find? (!draft.has ·)

-- Fields that are not given have their standard values.
def finish (draft : Draft) : Configuration where
  accountName := draft.accountName.getD ""
  accountKey := draft.accountKey.getD ""
  containerName := draft.containerName.getD ""
  environment := draft.environment.getD .worldwide
  getTimeout := draft.getTimeout.getD standardGetTimeout
  putTimeout := draft.putTimeout.getD standardPutTimeout

end Draft

namespace Document

open Json

def environmentNamed (name : String) (rest : Bytes) : Except Problem (Environment × Bytes) :=
  match Environment.ofName? name with
  | some e => .ok (e, rest)
  | none => fail (.unknownVariant name (Environment.all.map Environment.name)) rest

def environmentEnd (e : Environment) (bytes : Bytes) : Except Problem (Environment × Bytes) :=
  match skipBlank bytes with
  | 125 :: rest => .ok (e, rest)
  | [] => fail .endInObject []
  | _ :: _ => fail .expectedValue bytes

-- An environment is a name, or an object with the name as its only key and no value to it.
def wantEnvironment (bytes : Bytes) : Except Problem (Environment × Bytes) :=
  match skipBlank bytes with
  | [] => fail .endInValue []
  | 34 :: rest => do
    let (name, rest) ← string rest
    environmentNamed name rest
  | 123 :: rest => do
    let (name, rest) ← wantString "variant identifier" rest
    let (e, rest) ← environmentNamed name rest
    let rest ← colon rest
    let rest ← wantNull "unit" rest
    environmentEnd e rest
  | other => fail .expectedValue other

def readField (field : Field) (draft : Draft) (bytes : Bytes) : Except Problem (Draft × Bytes) :=
  match field with
  | .accountName => do
    let (s, rest) ← wantString "a string" bytes
    .ok ({ draft with accountName := some s }, rest)
  | .accountKey => do
    let (s, rest) ← wantString "a string" bytes
    .ok ({ draft with accountKey := some s }, rest)
  | .containerName => do
    let (s, rest) ← wantString "a string" bytes
    .ok ({ draft with containerName := some s }, rest)
  | .environment => do
    let (e, rest) ← wantEnvironment bytes
    .ok ({ draft with environment := some e }, rest)
  | .getTimeout => do
    let (n, rest) ← wantNatural "u64" bytes
    .ok ({ draft with getTimeout := some n }, rest)
  | .putTimeout => do
    let (n, rest) ← wantNatural "u64" bytes
    .ok ({ draft with putTimeout := some n }, rest)

-- The place of the next key's string, or the end of the object, whose brace is left in place.
def nextKey (first : Bool) (bytes : Bytes) : Except Problem (Option Bytes) :=
  match skipBlank bytes with
  | [] => fail .endInObject []
  | 125 :: _ => .ok none
  | b :: rest =>
    if first then if b = 34 then .ok (some rest) else fail .keyNotString (b :: rest)
    else if b = 44 then
      match skipBlank rest with
      | 34 :: more => .ok (some more)
      | 125 :: more => fail .trailingComma (125 :: more)
      | [] => fail .endInValue []
      | other => fail .keyNotString other
    else fail .expectedObjectComma (b :: rest)

def member (key : String) (draft : Draft) (rest : Bytes) : Except Problem (Draft × Bytes) :=
  match Field.ofName? key with
  | none => do
    let rest ← colon rest
    let rest ← skipValue rest
    .ok (draft, rest)
  | some field =>
    if draft.has field then fail (.duplicateField field.name) rest
    else do
      let rest ← colon rest
      readField field draft rest

-- The members of an object; each takes at least one byte.
def members : Nat → Bool → Draft → Bytes → Except Problem (Draft × Bytes)
  | 0, _, _, bytes => fail .endInObject bytes
  | fuel + 1, first, draft, bytes => do
    match ← nextKey first bytes with
    | none => .ok (draft, skipBlank bytes)
    | some rest =>
      let (key, rest) ← string rest
      let (draft, rest) ← member key draft rest
      members fuel false draft rest

-- An object behind its opening brace. What is missing is found out before the brace is passed.
def object (bytes : Bytes) : Except Problem (Configuration × Bytes) := do
  let (draft, rest) ← members (bytes.length + 1) true {} bytes
  match draft.missing? with
  | some field => fail (.missingField field.name) rest
  | none => .ok (draft.finish, rest.drop 1)

-- The place of the next element, or the end of the list, whose bracket is left in place.
def nextElement (first : Bool) (bytes : Bytes) : Except Problem (Option Bytes) :=
  match skipBlank bytes with
  | [] => fail .endInList []
  | 93 :: _ => .ok none
  | b :: rest =>
    if first then .ok (some (b :: rest))
    else if b = 44 then
      match skipBlank rest with
      | 93 :: more => fail .trailingComma (93 :: more)
      | [] => fail .endInValue []
      | other => .ok (some other)
    else fail .expectedListComma (b :: rest)

-- The elements of a list, one for each field as long as there are any.
def elements (first : Bool) (draft : Draft) (bytes : Bytes) :
    List Field → Except Problem (Draft × Bytes)
  | [] => .ok (draft, bytes)
  | field :: fields => do
    match ← nextElement first bytes with
    | none => .ok (draft, bytes)
    | some rest =>
      let (draft, rest) ← readField field draft rest
      elements false draft rest fields

def listEnd (bytes : Bytes) : Except Problem Bytes :=
  match skipBlank bytes with
  | [] => fail .endInList []
  | 93 :: rest => .ok rest
  | 44 :: rest =>
    match skipBlank rest with
    | 93 :: _ => fail .trailingComma rest
    | _ => fail .trailingCharacters rest
  | other => fail .trailingCharacters other

def elementCount (draft : Draft) : Nat := Field.all.countP draft.has

-- A list behind its opening bracket. It has at least the fields that have no standard value.
def list (bytes : Bytes) : Except Problem (Configuration × Bytes) := do
  let (draft, rest) ← elements true {} bytes Field.all
  match draft.missing? with
  | some _ =>
    fail (.invalidLength (elementCount draft) "struct AzureStorageConfig with 6 elements") rest
  | none => do
    let rest ← listEnd rest
    .ok (draft.finish, rest)

-- A document holds one configuration and nothing but blanks around it.
def read (document : Bytes) : Except Problem Configuration := do
  let (configuration, rest) ← match skipBlank document with
    | [] => fail .endInValue []
    | 123 :: rest => object rest
    | 91 :: rest => list rest
    | other => .error (unexpected "struct AzureStorageConfig" other)
  match skipBlank rest with
  | [] => .ok configuration
  | other => fail .trailingCharacters other

end Document

def ofDocument (document : Bytes) : Except Failure Configuration :=
  match Document.read document with
  | .error problem => .error (.invalidConfig (problem.message document))
  | .ok configuration => configuration.validate.map fun _ => configuration

-- Reads a configuration from what opening its file gave. A directory can be opened but not read.
def ofFile (content : Except Files.Problem Bytes) : Except Failure Configuration :=
  match content with
  | .ok document => ofDocument document
  | .error .isDirectory => .error (.invalidConfig Files.Problem.isDirectory.message)
  | .error problem => .error (.io problem)

end BlobStorage.Configuration
