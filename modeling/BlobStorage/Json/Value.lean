import BlobStorage.Json.Number
import BlobStorage.Json.Str
import BlobStorage.Text.Quoted

-- Values of a document: those that are wanted and those that are passed over.
namespace BlobStorage.Json

def word (expected : Bytes) (bytes : Bytes) : Except Problem Bytes :=
  match expected, bytes with
  | [], rest => .ok rest
  | _ :: _, [] => fail .endInValue []
  | e :: expected, b :: rest => if b = e then word expected rest else fail .expectedWord rest

def nullRest : Bytes := [117, 108, 108]
def trueRest : Bytes := [114, 117, 101]
def falseRest : Bytes := [97, 108, 115, 101]

-- The problem of a value that could be read after all, described, or else what kept it from being read.
def ifRead (step : Except Problem (α × Bytes)) (describe : α → String) (expected : String) :
    Problem :=
  match step with
  | .ok (value, rest) => ⟨.invalidType (describe value) expected, rest.length⟩
  | .error problem => problem

-- What is wrong with the value at hand where something else is expected. A value that cannot be read
-- is a fault of its own.
def unexpected (expected : String) (bytes : Bytes) : Problem :=
  let wordProblem (rest more : Bytes) (found : String) : Problem :=
    ifRead ((word rest more).map fun rest => ((), rest)) (fun _ => found) expected
  match bytes with
  | [] => ⟨.expectedValue, 0⟩
  | b :: rest =>
    if b = 110 then wordProblem nullRest rest "null"
    else if b = 116 then wordProblem trueRest rest "boolean `true`"
    else if b = 102 then wordProblem falseRest rest "boolean `false`"
    else if b = 45 then ifRead (Number.read true rest) Number.text expected
    else if Number.isDigit b then ifRead (Number.read false bytes) Number.text expected
    else if b = 34 then ifRead (string rest) (fun s => "string " ++ Text.quoted s) expected
    else if b = 91 then ⟨.invalidType "sequence" expected, bytes.length⟩
    else if b = 123 then ⟨.invalidType "map" expected, bytes.length⟩
    else ⟨.expectedValue, bytes.length⟩

def wantString (expected : String) (bytes : Bytes) : Except Problem (String × Bytes) :=
  match skipBlank bytes with
  | [] => fail .endInValue []
  | 34 :: rest => string rest
  | other => .error (unexpected expected other)

def naturalOnly (expected : String) (number : Number) (rest : Bytes) :
    Except Problem (Nat × Bytes) :=
  match number with
  | .natural n => .ok (n, rest)
  | .negative n => fail (.invalidValue (Number.negative n).text expected) rest
  | .real negative value => fail (.invalidType (Number.real negative value).text expected) rest

def wantNatural (expected : String) (bytes : Bytes) : Except Problem (Nat × Bytes) :=
  match skipBlank bytes with
  | [] => fail .endInValue []
  | b :: rest =>
    if b = 45 then do
      let (number, rest) ← Number.read true rest
      naturalOnly expected number rest
    else if Number.isDigit b then do
      let (number, rest) ← Number.read false (b :: rest)
      naturalOnly expected number rest
    else .error (unexpected expected (b :: rest))

def wantNull (expected : String) (bytes : Bytes) : Except Problem Bytes :=
  match skipBlank bytes with
  | [] => fail .endInValue []
  | 110 :: rest => word nullRest rest
  | other => .error (unexpected expected other)

def colon (bytes : Bytes) : Except Problem Bytes :=
  match skipBlank bytes with
  | [] => fail .endInObject []
  | 58 :: rest => .ok rest
  | other => fail .expectedColon other

inductive Frame where
  | list
  | object
  deriving DecidableEq

namespace Frame

def closing : Frame → UInt8
  | .list => 93
  | .object => 125

def atEnd : Frame → Fault
  | .list => .endInList
  | .object => .endInObject

def commaExpected : Frame → Fault
  | .list => .expectedListComma
  | .object => .expectedObjectComma

end Frame

def skipScalar (bytes : Bytes) : Except Problem Bytes :=
  match bytes with
  | [] => fail .endInValue []
  | b :: rest =>
    if b = 110 then word nullRest rest
    else if b = 116 then word trueRest rest
    else if b = 102 then word falseRest rest
    else if b = 45 then Number.skip rest
    else if Number.isDigit b then Number.skip bytes
    else if b = 34 then skipString rest
    else fail .expectedValue bytes

def skipKey (bytes : Bytes) : Except Problem Bytes :=
  match skipBlank bytes with
  | [] => fail .endInObject []
  | 34 :: rest => do
    let rest ← skipString rest
    colon rest
  | other => fail .keyNotString other

def skipEntry : Frame → Bytes → Except Problem Bytes
  | .list, bytes => .ok bytes
  | .object, bytes => skipKey bytes

-- Passes over a value. The open lists and objects around the place are kept, innermost first, so that
-- values may lie within each other as deep as they like; every step takes at least one byte.
mutual

def skipNested : Nat → List Frame → Bytes → Except Problem Bytes
  | 0, _, bytes => fail .endInValue bytes
  | fuel + 1, frames, bytes =>
    match skipBlank bytes with
    | 91 :: rest => skipBehind fuel false (.list :: frames) rest
    | 123 :: rest => skipBehind fuel false (.object :: frames) rest
    | other => do
      let rest ← skipScalar other
      skipBehind fuel true frames rest

def skipBehind : Nat → Bool → List Frame → Bytes → Except Problem Bytes
  | 0, _, _, bytes => fail .endInValue bytes
  | _ + 1, _, [], bytes => .ok bytes
  | fuel + 1, afterValue, frame :: outer, bytes =>
    match skipBlank bytes with
    | [] => fail frame.atEnd []
    | b :: rest =>
      if b = frame.closing then skipBehind fuel true outer rest
      else if afterValue then
        if b = 44 then do
          let rest ← skipEntry frame rest
          skipNested fuel (frame :: outer) rest
        else fail frame.commaExpected (b :: rest)
      else do
        let rest ← skipEntry frame (b :: rest)
        skipNested fuel (frame :: outer) rest

end

def skipValue (bytes : Bytes) : Except Problem Bytes :=
  skipNested (2 * bytes.length + 2) [] bytes

end BlobStorage.Json
