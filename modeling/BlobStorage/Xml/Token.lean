import BlobStorage.Text.Split

-- The pieces of an XML document.
namespace BlobStorage.Xml

inductive Token where
  | start (name : List Char) (attributes : List Char)
  | stop (name : List Char)
  | text (content : List Char)
  | literal (content : List Char)
  -- What cannot be read, and with it everything behind.
  | broken
  deriving DecidableEq, Repr

def isBlank (c : Char) : Bool := c == ' ' || c == '\t' || c == '\n' || c == '\r'

def until? (mark : List Char) : List Char → Option (List Char × List Char)
  | [] => if mark = [] then some ([], []) else none
  | c :: rest =>
    if mark.isPrefixOf (c :: rest) then some ([], (c :: rest).drop mark.length)
    else (until? mark rest).map fun (front, behind) => (c :: front, behind)

-- A tag up to its end, which does not count within quotation marks.
def tag? : Option Char → List Char → Option (List Char × List Char)
  | _, [] => none
  | quote, c :: rest =>
    if quote = none ∧ c = '>' then some ([], rest)
    else
      let quote :=
        if quote = some c then none
        else if quote = none ∧ (c = '"' ∨ c = '\'') then some c
        else quote
      (tag? quote rest).map fun (front, behind) => (c :: front, behind)

def dropBlanksAtEnd (cs : List Char) : List Char := (cs.reverse.dropWhile isBlank).reverse

-- The tokens of a tag's content. An element without content is a start and a stop.
def ofTag (content : List Char) : List Token :=
  match content with
  | '/' :: name => [.stop (dropBlanksAtEnd name)]
  | _ =>
    let alone := content.getLast? = some '/'
    let content := if alone then content.dropLast else content
    let name := content.takeWhile (!isBlank ·)
    .start name (content.drop name.length) :: (if alone then [.stop name] else [])

def next? (cs : List Char) : Option (List Token × List Char) :=
  match cs with
  | '<' :: '!' :: '-' :: '-' :: rest => (until? "-->".toList rest).map fun (_, behind) => ([], behind)
  | '<' :: '!' :: '[' :: 'C' :: 'D' :: 'A' :: 'T' :: 'A' :: '[' :: rest =>
    (until? "]]>".toList rest).map fun (content, behind) => ([.literal content], behind)
  | '<' :: '!' :: rest => (tag? none rest).map fun (_, behind) => ([], behind)
  | '<' :: '?' :: rest => (until? "?>".toList rest).map fun (_, behind) => ([], behind)
  | '<' :: rest => (tag? none rest).map fun (content, behind) => (ofTag content, behind)
  | _ => some ([.text (cs.takeWhile (· ≠ '<'))], cs.dropWhile (· ≠ '<'))

def tokens : Nat → List Char → List Token
  | 0, _ => [.broken]
  | _ + 1, [] => []
  | fuel + 1, c :: cs =>
    match next? (c :: cs) with
    | some (found, rest) => found ++ tokens fuel rest
    | none => [.broken]

end BlobStorage.Xml
