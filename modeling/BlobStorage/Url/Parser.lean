import BlobStorage.Text.Split
import BlobStorage.Url.Domain
import BlobStorage.Url.Path

-- Reading absolute URLs.
namespace BlobStorage.Url

inductive Problem where
  | noScheme
  | emptyHost
  | invalidPort
  | invalidIpv4
  | invalidIpv6
  | invalidDomain
  | invalidHostCharacter
  deriving DecidableEq, Repr

def Problem.message : Problem → String
  | .noScheme => "relative URL without a base"
  | .emptyHost => "empty host"
  | .invalidPort => "invalid port number"
  | .invalidIpv4 => "invalid IPv4 address"
  | .invalidIpv6 => "invalid IPv6 address"
  | .invalidDomain => "invalid international domain name"
  | .invalidHostCharacter => "invalid domain character"

namespace Parser

-- Blanks and controls around a URL do not belong to it, and neither do line ends and tabs within.
def clean (s : String) : List Char :=
  let outside (c : Char) : Bool := c.toNat ≤ 0x20
  (Text.dropRightWhile outside (s.toList.dropWhile outside)).filter (!Path.isDropped ·)

def isSchemeChar (c : Char) : Bool :=
  c.isAlphanum || c == '+' || c == '-' || c == '.'

def scheme? (cs : List Char) : Option (String × List Char) :=
  match cs, cs.dropWhile isSchemeChar with
  | first :: _, ':' :: rest =>
    if first.isAlpha then some (Text.asciiLower (String.ofList (cs.takeWhile isSchemeChar)), rest)
    else none
  | _, _ => none

-- What ends an authority; under a special scheme a backslash is a slash.
def endsAuthority (special : Bool) (c : Char) : Bool :=
  c == '/' || c == '?' || c == '#' || (special && c == '\\')

def endsPath (c : Char) : Bool := c == '?' || c == '#'

def isSlash (special : Bool) (c : Char) : Bool := c == '/' || (special && c == '\\')

def splitUserinfo (cs : List Char) : Option (List Char) × List Char :=
  if cs.contains '@' then
    let host := (cs.reverse.takeWhile (· ≠ '@')).reverse
    (some (cs.take (cs.length - host.length - 1)), host)
  else (none, cs)

-- The host's text ends at a colon outside brackets.
def splitHost : Bool → List Char → List Char × List Char
  | _, [] => ([], [])
  | inside, c :: rest =>
    if c = ':' ∧ inside = false then ([], c :: rest)
    else
      let (host, more) := splitHost (if c = '[' then true else if c = ']' then false else inside) rest
      (c :: host, more)

def bracketed (cs : List Char) : Except Problem Host :=
  match Address.ipv6? ((cs.drop 1).dropLast) with
  | some pieces => if cs.getLast? = some ']' then .ok (.ipv6 pieces) else .error .invalidIpv6
  | none => .error .invalidIpv6

def specialHost (cs : List Char) : Except Problem Host :=
  if cs = [] then .error .emptyHost
  else if cs.head? = some '[' then bracketed cs
  else
    match Text.ofUtf8? (Percent.decode (Text.utf8 (String.ofList cs))) with
    | none => .error .invalidDomain
    | some decoded =>
      match Domain.ascii? decoded with
      | none => .error .invalidDomain
      | some [] => .error .emptyHost
      | some name =>
        if Address.endsInNumber name then
          match Address.ipv4? name with
          | some address => .ok (.ipv4 address)
          | none => .error .invalidIpv4
        else .ok (.name (String.ofList name))

def otherHost (cs : List Char) : Except Problem Host :=
  if cs.head? = some '[' then bracketed cs
  else if cs.any fun c => c.toNat == 0 || " #/:<>?@[\\]^|".toList.contains c then
    .error .invalidHostCharacter
  else .ok (.name (String.ofList (Percent.encode Percent.isControl cs)))

-- A port: digits up to the end of the authority, or up to a backslash. None at all, and the scheme's
-- own, count as absent.
def port? (scheme : String) (cs : List Char) : Except Problem (Option Nat × List Char) :=
  let digits := cs.takeWhile Text.isDigit
  let rest := cs.dropWhile Text.isDigit
  let absent := digits = [] ∨ defaultPort? scheme = some (Text.digitsValue digits)
  if 65535 < Text.digitsValue digits ∨ (rest ≠ [] ∧ rest.head? ≠ some '\\') then .error .invalidPort
  else .ok (if absent then none else some (Text.digitsValue digits), rest)

def credentials (cs : List Char) : String × String :=
  let escape (part : List Char) : String := String.ofList (Percent.encode Percent.inUserinfo part)
  (escape (cs.takeWhile (· ≠ ':')), escape ((cs.dropWhile (· ≠ ':')).drop 1))

-- Where a host may be empty at all, neither a user nor a port may stand beside it. An at sign may,
-- but only at the end of the URL.
def mayLackHost (user : String × String) (userinfo : Option (List Char)) (portText behind : List Char) :
    Bool :=
  user.1 == "" && user.2 == "" && portText.isEmpty && (userinfo != some [] || behind.isEmpty)

def authority (scheme : String) (cs behind : List Char) :
    Except Problem (Authority × List Char) := do
  let (userinfo, rest) := splitUserinfo cs
  let user := credentials (userinfo.getD [])
  let (hostText, portText) := splitHost false rest
  if hostText.isEmpty && !mayLackHost user userinfo portText behind then .error .emptyHost
  let host ← if isSpecial scheme then specialHost hostText else otherHost hostText
  let (port, left) ← if portText = [] then .ok (none, []) else port? scheme (portText.drop 1)
  .ok (⟨user.1, user.2, host, port⟩, left)

-- The segments of a path that follows an authority. A special URL always has a path.
def segments (special : Bool) (cs : List Char) : List String :=
  match cs with
  | [] => if special then [""] else []
  | c :: rest => Path.ofParts [] (Text.splitOn (isSlash special) (if isSlash special c then rest else cs))

def queryAndFragment (special : Bool) (cs : List Char) : Option String × Option String :=
  let query := match cs with
    | '?' :: rest =>
      some (String.ofList (Percent.encode (Percent.inQuery special) (rest.takeWhile (· ≠ '#'))))
    | _ => none
  let fragment := match cs.dropWhile (· ≠ '#') with
    | '#' :: rest => some (String.ofList (Percent.encode Percent.inFragment rest))
    | _ => none
  (query, fragment)

def withAuthority (scheme : String) (cs : List Char) : Except Problem Url := do
  let special := isSpecial scheme
  let ends := endsAuthority special
  let behind := cs.dropWhile (!ends ·)
  let (a, left) ← authority scheme (cs.takeWhile (!ends ·)) behind
  let rest := left ++ behind
  let path := segments special (rest.takeWhile (!endsPath ·))
  let (query, fragment) := queryAndFragment special (rest.dropWhile (!endsPath ·))
  .ok ⟨scheme, some a, .segments path, query, fragment⟩

-- Without two slashes there is no authority; without one slash the path has no structure.
def withoutAuthority (scheme : String) (cs : List Char) : Url :=
  let written := cs.takeWhile (!endsPath ·)
  let (query, fragment) := queryAndFragment false (cs.dropWhile (!endsPath ·))
  let path := match written with
    | '/' :: rest => Path.segments (Path.ofParts [] (Text.splitOn (· == '/') rest))
    | _ => .plain (String.ofList (Percent.encode Percent.isControl written))
  ⟨scheme, none, path, query, fragment⟩

-- The host of a file may be missing, and `localhost` is the same as none.
def fileHost (cs : List Char) : Except Problem Host :=
  if cs = [] then .ok (.name "")
  else do
    let host ← specialHost cs
    .ok (if host = .name "localhost" then .name "" else host)

-- Empty segments in front do not count in the path of a file.
def withoutLeadingEmpty : List String → List String
  | "" :: second :: rest => withoutLeadingEmpty (second :: rest)
  | segments => segments

def file (cs : List Char) : Except Problem Url := do
  let isSep := isSlash true
  let slashes := (cs.takeWhile isSep).length
  let (hostText, rest) :=
    if 2 ≤ slashes then
      let behind := cs.drop 2
      (behind.takeWhile (!endsAuthority true ·), behind.dropWhile (!endsAuthority true ·))
    else ([], cs)
  let host ← fileHost hostText
  let parsed := segments true (rest.takeWhile (!endsPath ·))
  let (query, fragment) := queryAndFragment true (rest.dropWhile (!endsPath ·))
  .ok ⟨"file", some ⟨"", "", host, none⟩, .segments (withoutLeadingEmpty parsed), query, fragment⟩

end Parser

def parse (s : String) : Except Problem Url :=
  match Parser.scheme? (Parser.clean s) with
  | none => .error .noScheme
  | some (scheme, rest) =>
    if scheme = "file" then Parser.file rest
    else if isSpecial scheme then Parser.withAuthority scheme (rest.dropWhile (Parser.isSlash true))
    else
      match rest with
      | '/' :: '/' :: behind => Parser.withAuthority scheme behind
      | _ => .ok (Parser.withoutAuthority scheme rest)

end BlobStorage.Url
