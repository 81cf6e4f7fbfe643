import BlobStorage.Http.Charset
import BlobStorage.Http.Header
import BlobStorage.Http.Status
import BlobStorage.Text.Decimal
import BlobStorage.Url.Basic

-- Requests, and responses as they come from the connection. Left out are provisional answers, lengths
-- that contradict each other, and codings of a body other than chunks.
namespace BlobStorage.Http

structure Request where
  method : String
  url : Url
  headers : Headers
  body : Option Bytes
  deriving DecidableEq

-- A response with its body as it was written on the connection.
structure Response where
  status : Nat
  headers : Headers
  body : Bytes
  deriving DecidableEq

-- The bytes of a body that could be read, and whether they are all of it.
structure Received where
  bytes : Bytes
  complete : Bool
  deriving DecidableEq

namespace Received

def line? : Bytes → Option (Bytes × Bytes)
  | 13 :: 10 :: rest => some ([], rest)
  | b :: rest => (line? rest).map fun (front, behind) => (b :: front, behind)
  | [] => none

def chunkSize? (line : Bytes) : Option Nat :=
  let digits := line.takeWhile fun b => (Bytes.hexValue? b).isSome
  let rest := line.drop digits.length
  if digits ≠ [] ∧ (rest = [] ∨ rest.head? = some 59) then
    some (digits.foldl (fun n b => 16 * n + (Bytes.hexValue? b).getD 0) 0)
  else none

-- The lines behind the last chunk end with an empty one.
def trailerEnds : Nat → Bytes → Bool
  | 0, _ => false
  | fuel + 1, bytes =>
    match line? bytes with
    | some ([], _) => true
    | some (_, rest) => trailerEnds fuel rest
    | none => false

def ofChunks : Nat → Bytes → Received
  | 0, _ => ⟨[], false⟩
  | fuel + 1, bytes =>
    match line? bytes with
    | none => ⟨[], false⟩
    | some (line, rest) =>
      match chunkSize? line with
      | none => ⟨[], false⟩
      | some 0 => ⟨[], trailerEnds (rest.length + 1) rest⟩
      | some size =>
        match rest.drop size with
        | 13 :: 10 :: behind =>
          let more := ofChunks fuel behind
          ⟨rest.take size ++ more.bytes, more.complete⟩
        | _ => ⟨rest.take size, false⟩

end Received

namespace Response

def isChunked (r : Response) : Bool :=
  ((r.headers.text? "transfer-encoding").map fun v => Text.asciiLower (Text.trim v)) == some "chunked"

-- What can be read of the body of the answer to a request. With neither chunks nor a length it goes on
-- to the end of the connection.
def received (r : Response) (method : String) : Received :=
  if method = "HEAD" then ⟨[], true⟩
  else if r.isChunked then Received.ofChunks (r.body.length + 1) r.body
  else
    match r.headers.first? "content-length" with
    | none => ⟨r.body, true⟩
    | some value =>
      let digits := value.toList
      if digits ≠ [] ∧ digits.all Text.isDigit then
        ⟨r.body.take (Text.digitsValue digits), Text.digitsValue digits ≤ r.body.length⟩
      else if method = "GET" then ⟨[], false⟩
      else ⟨r.body, true⟩

def text (r : Response) (bytes : Bytes) : String :=
  ((r.headers.text? "content-type").map Charset.ofContentType |>.getD .utf8).decode bytes

end Response

inductive Answer where
  | dropped
  | response (r : Response)
  deriving DecidableEq

end BlobStorage.Http
