import BlobStorage.Text.CaseTable

namespace BlobStorage.Text

def inRanges (ranges : List (Nat × Nat)) (c : Char) : Bool :=
  ranges.any fun range => range.1 ≤ c.toNat && c.toNat ≤ range.2

namespace CaseRun

def covers (run : CaseRun) (n : Nat) : Bool :=
  run.first ≤ n && n ≤ run.last && (n - run.first) % run.step == 0

end CaseRun

def smallLetter (c : Char) : Char :=
  match caseRuns.find? (·.covers c.toNat) with
  | some run => Char.ofNat ((c.toNat : Int) + run.shift).toNat
  | none => c

def casedAhead (cs : List Char) : Bool :=
  match cs.dropWhile (inRanges ignorableRanges) with
  | c :: _ => inRanges casedRanges c
  | [] => false

-- The lower case of `cs`, where `before` holds the characters in front of it, nearest first. A capital
-- sigma at the end of a word has a form of its own, and the dotted capital I keeps its dot as a mark.
def lowerAfter (before : List Char) : List Char → List Char
  | [] => []
  | c :: rest =>
    (if c = 'Σ' then [if casedAhead before && !casedAhead rest then 'ς' else 'σ']
     else if c = 'İ' then ['i', '\u0307']
     else [smallLetter c]) ++ lowerAfter (c :: before) rest

def lowercase (s : String) : String :=
  String.ofList (lowerAfter [] s.toList)

-- Small letters for the ASCII capitals; everything else stays.
def asciiLower (s : String) : String :=
  String.ofList (s.toList.map fun c =>
    if 65 ≤ c.toNat ∧ c.toNat ≤ 90 then Char.ofNat (c.toNat + 32) else c)

end BlobStorage.Text
