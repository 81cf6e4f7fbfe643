-- Texts are cut at their ends, and between separators.
namespace BlobStorage.Text

-- The characters with the Unicode property White_Space.
def isBlank (c : Char) : Bool :=
  let n := c.toNat
  (0x09 ≤ n && n ≤ 0x0D) || n == 0x20 || n == 0x85 || n == 0xA0 || n == 0x1680 ||
    (0x2000 ≤ n && n ≤ 0x200A) || n == 0x2028 || n == 0x2029 || n == 0x202F || n == 0x205F ||
    n == 0x3000

def dropRightWhile (p : Char → Bool) (cs : List Char) : List Char :=
  (cs.reverse.dropWhile p).reverse

def trim (s : String) : String :=
  String.ofList (dropRightWhile isBlank (s.toList.dropWhile isBlank))

-- The parts of a list between separators; there is always at least one.
def splitOn (separator : α → Bool) : List α → List (List α)
  | [] => [[]]
  | x :: rest =>
    if separator x then [] :: splitOn separator rest
    else
      match splitOn separator rest with
      | part :: more => (x :: part) :: more
      | [] => [[x]]

theorem splitOn_ne_nil (separator : α → Bool) (xs : List α) : splitOn separator xs ≠ [] := by
  cases xs with
  | nil => simp [splitOn]
  | cons x rest =>
    simp only [splitOn]
    split
    · simp
    · split <;> simp

def split (separator : Char) (s : String) : List String :=
  (splitOn (· == separator) s.toList).map String.ofList

end BlobStorage.Text
