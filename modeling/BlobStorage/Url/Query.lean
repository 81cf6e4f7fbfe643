import BlobStorage.Text.Split
import BlobStorage.Url.Percent

-- Queries in form encoding: pairs of a name and a value, joined by ampersands.
namespace BlobStorage.Url.Query

def isPlain (c : Char) : Bool :=
  let n := c.toNat
  (65 ≤ n && n ≤ 90) || (97 ≤ n && n ≤ 122) || (48 ≤ n && n ≤ 57)
    || c == '*' || c == '-' || c == '.' || c == '_'

def encodeChar (c : Char) : List Char :=
  if isPlain c then [c] else if c = ' ' then ['+'] else Percent.escapeChar c

def encodePart (s : String) : List Char :=
  s.toList.flatMap encodeChar

def encodePair (pair : String × String) : List Char :=
  encodePart pair.1 ++ ['='] ++ encodePart pair.2

def appendPair (query : List Char) (pair : String × String) : List Char :=
  query ++ (if query = [] then [] else ['&']) ++ encodePair pair

def appendPairs (query : List Char) (pairs : List (String × String)) : List Char :=
  pairs.foldl appendPair query

-- The text of a name or a value: a plus sign is a blank, and bytes that are no UTF-8 are replaced.
def decodePart (bytes : Bytes) : String :=
  Text.ofUtf8Lossy (Percent.decode (bytes.map fun b => if b.toNat = 43 then 32 else b))

-- The first equals sign separates the name from the value.
def decodePair (bytes : Bytes) : String × String :=
  (decodePart (bytes.takeWhile (· ≠ 61)), decodePart ((bytes.dropWhile (· ≠ 61)).drop 1))

def decode (query : String) : List (String × String) :=
  ((Text.splitOn (· == 38) (Text.utf8 query)).filter (· ≠ [])).map decodePair

end BlobStorage.Url.Query
