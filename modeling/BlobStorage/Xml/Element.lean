import BlobStorage.Text.Utf8
import BlobStorage.Url.Address
import BlobStorage.Xml.Token

-- Elements of a document, and the values in them.
namespace BlobStorage.Xml

structure Piece where
  content : List Char
  literal : Bool
  deriving DecidableEq, Repr

-- Text that nothing but comments interrupts, or an element.
inductive Node where
  | text (pieces : List Piece)
  | element (name : List Char) (attributes : List Char) (children : List Node)

def consPiece (piece : Piece) : List Node → List Node
  | .text pieces :: rest => .text (piece :: pieces) :: rest
  | nodes => .text [piece] :: nodes

def nodes : Nat → List Char → List Token → Option (List Node × List Token)
  | 0, _, _ => none
  | _ + 1, _, [] => none
  | fuel + 1, name, token :: rest =>
    match token with
    | .broken => none
    | .stop ended => if ended = name then some ([], rest) else none
    | .text content => (nodes fuel name rest).map fun (more, behind) =>
      (consPiece ⟨content, false⟩ more, behind)
    | .literal content => (nodes fuel name rest).map fun (more, behind) =>
      (consPiece ⟨content, true⟩ more, behind)
    | .start child attributes => do
      let (children, rest) ← nodes fuel child rest
      let (more, behind) ← nodes fuel name rest
      some (.element child attributes children :: more, behind)

-- The root element; only blanks may stand in front of it, and what follows it is not looked at.
def root? : List Token → Option Node
  | .text content :: rest => if content.all isBlank then root? rest else none
  | .start name attributes :: rest =>
    (nodes (rest.length + 1) name rest).map fun (children, _) => .element name attributes children
  | _ => none

def ofDocument? (document : String) : Option Node :=
  root? (tokens (document.toList.length + 1) document.toList)

def localName (name : List Char) : String :=
  String.ofList (if name.contains ':' then (name.dropWhile (· ≠ ':')).drop 1 else name)

def attributeNames? : Nat → List Char → Option (List (List Char))
  | 0, _ => none
  | fuel + 1, cs =>
    match cs.dropWhile isBlank with
    | [] => some []
    | cs =>
      let name := cs.takeWhile fun c => c ≠ '=' ∧ !isBlank c
      match (cs.drop name.length).dropWhile isBlank with
      | '=' :: value =>
        match value.dropWhile isBlank with
        | quote :: value =>
          if quote = '"' ∨ quote = '\'' then
            if value.contains quote ∧ name ≠ [] then
              (attributeNames? fuel ((value.dropWhile (· ≠ quote)).drop 1)).map (name :: ·)
            else none
          else none
        | [] => none
      | _ => none

-- Attributes have quoted values and different names.
def attributesFit (attributes : List Char) : Bool :=
  match attributeNames? (attributes.length + 1) attributes with
  | some names => decide names.Nodup
  | none => false

-- The character of a reference, which must not be the one that ends texts elsewhere.
def reference? (name : List Char) : Option Char :=
  let ofValue (value : Option Nat) : Option Char :=
    match value with
    | some n => if 0 < n ∧ n.isValidChar then some (Char.ofNat n) else none
    | none => none
  match name with
  | '#' :: 'x' :: digits => if digits = [] then none else ofValue (Url.Address.digitsValue? 16 digits)
  | '#' :: digits => if digits = [] then none else ofValue (Url.Address.digitsValue? 10 digits)
  | _ =>
    if name = "amp".toList then some '&'
    else if name = "lt".toList then some '<'
    else if name = "gt".toList then some '>'
    else if name = "quot".toList then some '"'
    else if name = "apos".toList then some '\''
    else none

-- Replaces entities and references; the first argument holds the name of one that was begun.
def unescape? : Option (List Char) → List Char → Option (List Char)
  | none, [] => some []
  | some _, [] => none
  | none, c :: rest => if c = '&' then unescape? (some []) rest else (unescape? none rest).map (c :: ·)
  | some name, c :: rest =>
    if c = ';' then do
      let meant ← reference? name.reverse
      let more ← unescape? none rest
      some (meant :: more)
    else unescape? (some (c :: name)) rest

def Piece.value? (piece : Piece) : Option (List Char) :=
  if piece.literal then some piece.content else unescape? none piece.content

-- Blanks at both ends of a text are dropped, before anything in it is replaced.
def trimFirst : List Piece → List Piece
  | piece :: rest =>
    (if piece.literal then piece else { piece with content := piece.content.dropWhile isBlank }) :: rest
  | [] => []

def trimLast (pieces : List Piece) : List Piece :=
  (match pieces.reverse with
    | piece :: rest =>
      (if piece.literal then piece else { piece with content := dropBlanksAtEnd piece.content }) :: rest
    | [] => []).reverse

def textValue? (pieces : List Piece) : Option (List Char) :=
  ((trimLast (trimFirst pieces)).mapM Piece.value?).map List.flatten

def stringValue? : List Node → Option String
  | [] => some ""
  | [.text pieces] => (textValue? pieces).map String.ofList
  | _ => none

-- Whether the text beside an element's children could be read, were it wanted.
def textsFit (children : List Node) : Bool :=
  children.all fun
    | .text pieces => (textValue? pieces).isSome
    | .element .. => true

def childrenNamed (name : String) (children : List Node) : List (List Node) :=
  children.filterMap fun
    | .element n _ inner => if localName n = name then some inner else none
    | .text _ => none

-- The string in the only element of a name, if there is one; `none` if it is not in order.
def optionalString? (name : String) (children : List Node) : Option (Option String) :=
  match childrenNamed name children with
  | [] => some none
  | [inner] => (stringValue? inner).map some
  | _ => none

def requiredString? (name : String) (children : List Node) : Option String :=
  (optionalString? name children).join

end BlobStorage.Xml
