import BlobStorage.Text.Lower
import BlobStorage.Text.Split
import BlobStorage.Text.Utf8

-- The text of a message's body.
namespace BlobStorage.Http

inductive Charset where
  | utf8
  | western
  | utf16Little
  | utf16Big
  deriving DecidableEq, Repr

namespace Charset

def westernLabels : List String :=
  ["iso-8859-1", "iso8859-1", "iso88591", "iso_8859-1", "latin1", "l1", "us-ascii", "ascii",
    "windows-1252", "cp1252", "x-cp1252", "ansi_x3.4-1968", "cp819", "ibm819", "iso-ir-100"]

-- The charset of a label; a label that is not known means UTF-8.
def ofLabel (label : String) : Charset :=
  let label := Text.asciiLower (Text.trim label)
  if westernLabels.contains label then western
  else if ["utf-16", "utf-16le", "unicode", "ucs-2"].contains label then utf16Little
  else if label = "utf-16be" then utf16Big
  else utf8

def ofContentType (value : String) : Charset :=
  let parameters := (Text.split ';' value).drop 1
  let named := parameters.findSome? fun parameter =>
    match Text.split '=' parameter with
    | [name, label] =>
      if Text.asciiLower (Text.trim name) = "charset" then
        some (String.ofList ((Text.trim label).toList.filter (· ≠ '"')))
      else none
    | _ => none
  ofLabel (named.getD "utf-8")

-- Where the western charset differs from the code points, it has marks and letters of its own.
def westernExtras : List Nat :=
  [0x20AC, 0x81, 0x201A, 0x192, 0x201E, 0x2026, 0x2020, 0x2021, 0x2C6, 0x2030, 0x160, 0x2039, 0x152,
    0x8D, 0x17D, 0x8F, 0x90, 0x2018, 0x2019, 0x201C, 0x201D, 0x2022, 0x2013, 0x2014, 0x2DC, 0x2122,
    0x161, 0x203A, 0x153, 0x9D, 0x17E, 0x178]

def westernChar (b : UInt8) : Char :=
  let n := b.toNat
  if 0x80 ≤ n ∧ n < 0xA0 then Char.ofNat (westernExtras.getD (n - 0x80) n) else Char.ofNat n

def units (big : Bool) : Bytes → List Nat
  | a :: b :: rest =>
    (if big then 256 * a.toNat + b.toNat else 256 * b.toNat + a.toNat) :: units big rest
  | [_] => [0xDC00]
  | [] => []

-- Characters of 16-bit units; a unit that is left alone is replaced.
def unitChars : List Nat → List Char
  | high :: low :: rest =>
    if 0xD800 ≤ high ∧ high ≤ 0xDBFF ∧ 0xDC00 ≤ low ∧ low ≤ 0xDFFF then
      Char.ofNat ((high - 0xD800) * 1024 + (low - 0xDC00) + 0x10000) :: unitChars rest
    else unitChar high :: unitChars (low :: rest)
  | [unit] => [unitChar unit]
  | [] => []
where
  unitChar (unit : Nat) : Char :=
    if 0xD800 ≤ unit ∧ unit ≤ 0xDFFF then '\uFFFD' else Char.ofNat unit

def decodeAs : Charset → Bytes → String
  | utf8, bytes => Text.ofUtf8Lossy bytes
  | western, bytes => String.ofList (bytes.map westernChar)
  | utf16Little, bytes => String.ofList (unitChars (units false bytes))
  | utf16Big, bytes => String.ofList (unitChars (units true bytes))

-- A mark at the start of a body tells its charset, whatever is said elsewhere, and is no part of the
-- text.
def decode (charset : Charset) : Bytes → String
  | 0xEF :: 0xBB :: 0xBF :: rest => decodeAs utf8 rest
  | 0xFF :: 0xFE :: rest => decodeAs utf16Little rest
  | 0xFE :: 0xFF :: rest => decodeAs utf16Big rest
  | bytes => decodeAs charset bytes

end Charset

end BlobStorage.Http
