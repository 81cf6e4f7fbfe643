import BlobStorage.Text.Lower
import BlobStorage.Url.Basic

-- Building paths from segments.
namespace BlobStorage.Url.Path

-- A letter with a colon or a bar, which names a drive; dots do not lead out of a drive.
def isDrive (segment : String) : Bool :=
  match segment.toList with
  | [letter, mark] => letter.isAlpha && (mark == ':' || mark == '|')
  | _ => false

def shorten (segments : List String) : List String :=
  match segments.getLast? with
  | some last => if isDrive last then segments else segments.dropLast
  | none => []

def isSingleDot (raw : List Char) : Bool :=
  [".", "%2e"].contains (Text.asciiLower (String.ofList raw))

def isDoubleDot (raw : List Char) : Bool :=
  ["..", ".%2e", "%2e.", "%2e%2e"].contains (Text.asciiLower (String.ofList raw))

-- Reads one segment of a written path. Dots move in the hierarchy; at the end of a path they leave an
-- empty segment.
def addParsed (segments : List String) (raw : List Char) (isLast : Bool) : List String :=
  if isDoubleDot raw then shorten segments ++ (if isLast then [""] else [])
  else if isSingleDot raw then segments ++ (if isLast then [""] else [])
  else segments ++ [String.ofList (Percent.encode Percent.inPath raw)]

def ofParts (segments : List String) : List (List Char) → List String
  | [] => segments
  | [raw] => addParsed segments raw true
  | raw :: rest => ofParts (addParsed segments raw false) rest

def isDropped (c : Char) : Bool := c == '\t' || c == '\n' || c == '\r'

-- Appends one segment as data. Dots are skipped when they are given as such; when they only appear
-- once the dropped characters are gone they move in the hierarchy.
def push (special : Bool) (segments : List String) (segment : String) : List String :=
  if segment = "." ∨ segment = ".." then segments
  else
    let front := if segments = [""] then [] else segments
    let raw := segment.toList.filter (!isDropped ·)
    if raw = ['.', '.'] then shorten front ++ [""]
    else if raw = ['.'] then front ++ [""]
    else front ++ [String.ofList (Percent.encode (Percent.inSegment special) raw)]

-- Removes an empty segment at the end, unless it is the only one.
def popEmpty (segments : List String) : List String :=
  if 1 < segments.length ∧ segments.getLast? = some "" then segments.dropLast else segments

end BlobStorage.Url.Path

namespace BlobStorage.Url

def extend? (url : Url) (change : List String → List String) (added : List String) : Option Url :=
  match url.path with
  | .segments segments =>
    some { url with path := .segments (added.foldl (Path.push url.special) (change segments)) }
  | .plain _ => none

end BlobStorage.Url
