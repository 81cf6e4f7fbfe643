import BlobStorage.Text.Decimal

namespace BlobStorage

structure Span where
  nanos : Nat
  deriving DecidableEq, Repr

namespace Span

def second : Nat := 1000000000

def ofSeconds (seconds : Nat) : Span := ⟨seconds * second⟩

def seconds (span : Span) : Nat := span.nanos / second

def subsecond (span : Span) : Nat := span.nanos % second

-- Seconds with as many decimals as are needed, up to nine.
def text (span : Span) : String :=
  let decimals := (Text.padded 9 span.subsecond).toList.reverse.dropWhile (· == '0')
  Nat.repr span.seconds
    ++ (if decimals = [] then "" else String.ofList ('.' :: decimals.reverse)) ++ "s"

end Span

end BlobStorage
