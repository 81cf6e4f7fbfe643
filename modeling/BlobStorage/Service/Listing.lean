import BlobStorage.Store.Backend
import BlobStorage.Xml.Element

-- The documents that the service answers with.
namespace BlobStorage.Service

open Xml

-- Byte order marks in front of a document do not belong to it.
def withoutMarks (document : String) : String :=
  String.ofList (document.toList.dropWhile (· == '\uFEFF'))

-- One mark is dropped by the reader of documents itself.
def rootOf? (document : String) : Option Node :=
  match document.toList with
  | '\uFEFF' :: rest => ofDocument? (String.ofList rest)
  | _ => ofDocument? document

-- The blobs of a listing stand next to each other, and nothing follows them.
def blobsTogether (children : List Node) : Bool :=
  let isBlob : Node → Bool
    | .element name _ _ => localName name == "Blob"
    | .text _ => false
  let isBlankText : Node → Bool
    | .text pieces => textValue? pieces == some []
    | .element .. => false
  ((children.dropWhile (!isBlob ·)).filter (!isBlankText ·)).all isBlob

def blobName? (node : Node) : Option String :=
  match node with
  | .element _ attributes children =>
    if attributesFit attributes ∧ textsFit children then requiredString? "Name" children else none
  | .text _ => none

def isNamed (name : String) : Node → Bool
  | .element n _ _ => localName n == name
  | .text _ => false

def blobNames? (node : Node) : Option (List String) :=
  match node with
  | .element _ attributes children =>
    if attributesFit attributes ∧ textsFit children ∧ blobsTogether children then
      (children.filter (isNamed "Blob")).mapM blobName?
    else none
  | .text _ => none

def namesOf? (children : List Node) : Option (List String) :=
  match children.filter (isNamed "Blobs") with
  | [] => some []
  | [node] => blobNames? node
  | _ => none

-- The page in a listing's document. An empty marker is none.
def listing? (document : String) : Option Page :=
  match rootOf? document with
  | some (.element _ attributes children) =>
    if attributesFit attributes ∧ textsFit children then do
      let names ← namesOf? children
      let marker ← optionalString? "NextMarker" children
      some ⟨names, marker.filter (· ≠ "")⟩
    else none
  | _ => none

def parseListing (document : String) : Except Failure Page :=
  match listing? (withoutMarks document) with
  | some page => .ok page
  | none => .error (.malformedResponse "blob listing: unreadable document")

def errorDetail? (document : String) : Option (String × Option String) :=
  match rootOf? (withoutMarks document) with
  | some (.element _ attributes children) =>
    if attributesFit attributes ∧ textsFit children then do
      let code ← requiredString? "Code" children
      let message ← optionalString? "Message" children
      some (code, message)
    else none
  | _ => none

def firstLine? (s : String) : Option String :=
  if s = "" then none
  else
    let line := s.toList.takeWhile (· ≠ '\n')
    let ended := s.toList.contains '\n'
    some (String.ofList (if ended ∧ line.getLast? = some '\r' then line.dropLast else line))

end BlobStorage.Service
