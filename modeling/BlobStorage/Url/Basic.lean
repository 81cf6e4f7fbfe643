import BlobStorage.Url.Query
import BlobStorage.Url.Address

namespace BlobStorage

namespace Url

-- Who answers for a URL. Names are written in ASCII, and may be empty under a scheme that is not
-- special.
inductive Host where
  | name (text : String)
  | ipv4 (address : Nat)
  | ipv6 (pieces : List Nat)
  deriving DecidableEq, Repr

def Host.text : Host → String
  | .name text => text
  | .ipv4 address => Address.ipv4Text address
  | .ipv6 pieces => "[" ++ Address.ipv6Text pieces ++ "]"

-- What stands between two slashes and the path. A port that is the scheme's own is left out.
structure Authority where
  username : String
  password : String
  host : Host
  port : Option Nat
  deriving DecidableEq, Repr

namespace Authority

def userinfoText (a : Authority) : String :=
  if a.username = "" ∧ a.password = "" then ""
  else a.username ++ (if a.password = "" then "" else ":" ++ a.password) ++ "@"

def hostText (a : Authority) : String :=
  a.host.text ++ (match a.port with | some port => ":" ++ Nat.repr port | none => "")

end Authority

-- A path of segments, each with a slash in front of it, or a text without structure, as in a mail
-- address.
inductive Path where
  | segments (parts : List String)
  | plain (text : String)
  deriving DecidableEq, Repr

def Path.text : Path → String
  | .segments parts => String.join (parts.map ("/" ++ ·))
  | .plain text => text

def specialSchemes : List (String × Option Nat) :=
  [("http", some 80), ("https", some 443), ("ws", some 80), ("wss", some 443), ("ftp", some 21),
    ("file", none)]

def isSpecial (scheme : String) : Bool :=
  specialSchemes.any (·.1 == scheme)

def defaultPort? (scheme : String) : Option Nat :=
  (specialSchemes.lookup scheme).join

end Url

-- An absolute URL. All parts are in their encoded form.
structure Url where
  scheme : String
  authority : Option Url.Authority
  path : Url.Path
  query : Option String
  fragment : Option String
  deriving DecidableEq, Repr

namespace Url

def special (url : Url) : Bool := isSpecial url.scheme

def queryText (url : Url) : String :=
  match url.query with | some query => "?" ++ query | none => ""

def fragmentText (url : Url) : String :=
  match url.fragment with | some fragment => "#" ++ fragment | none => ""

-- Without an authority, a path that starts with two slashes would read as one.
def pathGuard (url : Url) : String :=
  match url.authority, url.path with
  | none, .segments ("" :: _ :: _) => "/."
  | _, _ => ""

def authorityText (url : Url) : String :=
  match url.authority with
  | some a => "//" ++ a.userinfoText ++ a.hostText
  | none => ""

def text (url : Url) : String :=
  url.scheme ++ ":" ++ url.authorityText ++ url.pathGuard ++ url.path.text ++ url.queryText
    ++ url.fragmentText

def withoutUser (url : Url) : Url :=
  { url with authority := url.authority.map fun a => { a with username := "", password := "" } }

-- The URL as a request names its target: user information and fragment are not sent.
def target (url : Url) : Url :=
  { url with
    authority := url.authority.map fun a => { a with username := "", password := "" }
    fragment := none }

-- Where requests to a URL go: the host, and the port, which may be the scheme's own.
def site (url : Url) : Option String × Option Nat :=
  (url.authority.map (·.host.text), (url.authority.bind (·.port)).or (defaultPort? url.scheme))

def queryPairs (url : Url) : List (String × String) :=
  match url.query with | some query => Query.decode query | none => []

def appendQuery (url : Url) (pairs : List (String × String)) : Url :=
  { url with
    query := some (String.ofList (Query.appendPairs (url.query.getD "").toList pairs)) }

end Url

end BlobStorage
