import BlobStorage.Text.Split
import BlobStorage.Text.Lower

namespace BlobStorage.Http

-- Header fields in the order in which they were given, with names in small letters. A name may be
-- repeated.
abbrev Headers := List (String × String)

namespace Headers

def ofPairs (pairs : List (String × String)) : Headers :=
  pairs.map fun (name, value) => (Text.asciiLower name, value)

-- A value is text if it consists of visible ASCII characters, blanks and tabs.
def isText (value : String) : Bool :=
  value.toList.all fun c => c == '\t' || (0x20 ≤ c.toNat && c.toNat ≤ 0x7E)

def first? (headers : Headers) (name : String) : Option String := headers.lookup name

def text? (headers : Headers) (name : String) : Option String :=
  (headers.first? name).filter isText

def set (headers : Headers) (name value : String) : Headers :=
  headers.filter (·.1 ≠ name) ++ [(name, value)]

def all (headers : Headers) (name : String) : List String :=
  (headers.filter (·.1 == name)).map (·.2)

-- Control characters other than the tab cannot be sent in a value.
def isSendable (value : String) : Bool :=
  value.toList.all fun c => c == '\t' || (0x20 ≤ c.toNat && c.toNat ≠ 0x7F)

end Headers

end BlobStorage.Http
