import BlobStorage.Text.Utf8

-- Percent-encoding: a byte may be written as a percent sign and two hexadecimal digits. Which
-- characters have to be is decided by the part of a URL that they stand in.
namespace BlobStorage.Url.Percent

def upperHexDigit (n : Nat) : Char :=
  if n < 10 then Char.ofNat (48 + n) else Char.ofNat (55 + n)

def escapeByte (b : UInt8) : List Char :=
  ['%', upperHexDigit (b.toNat / 16), upperHexDigit (b.toNat % 16)]

def escapeChar (c : Char) : List Char :=
  (String.utf8EncodeChar c).flatMap escapeByte

def encode (escaped : Char → Bool) (cs : List Char) : List Char :=
  cs.flatMap fun c => if escaped c then escapeChar c else [c]

def isControl (c : Char) : Bool :=
  c.toNat < 0x20 || 0x7F ≤ c.toNat

def inFragment (c : Char) : Bool :=
  isControl c || c == ' ' || c == '"' || c == '<' || c == '>' || c == '\x60'

def inPath (c : Char) : Bool :=
  inFragment c || c == '#' || c == '?' || c == '\x7b' || c == '\x7d'

def inUserinfo (c : Char) : Bool :=
  inPath c || c == '/' || c == ':' || c == ';' || c == '=' || c == '@' || c == '[' || c == '\\'
    || c == ']' || c == '^' || c == '|'

-- In a segment that is appended to a path the separators and the percent sign are data. Under a
-- special scheme a backslash would separate as well.
def inSegment (special : Bool) (c : Char) : Bool :=
  inPath c || c == '/' || c == '%' || (special && c == '\\')

def inQuery (special : Bool) (c : Char) : Bool :=
  isControl c || c == ' ' || c == '"' || c == '#' || c == '<' || c == '>' || (special && c == '\'')

-- Replaces each escape by its byte; a percent sign without two digits behind it stays.
def decode : Bytes → Bytes
  | [] => []
  | [a] => [a]
  | [a, b] => [a, b]
  | a :: b :: c :: rest =>
    if a.toNat = 37 then
      match Bytes.hexValue? b, Bytes.hexValue? c with
      | some high, some low => UInt8.ofNat (16 * high + low) :: decode rest
      | _, _ => a :: decode (b :: c :: rest)
    else a :: decode (b :: c :: rest)

end BlobStorage.Url.Percent
