import BlobStorage.Digest.Md5

namespace BlobStorage

-- The MD5 digest of a blob's content. One that the service reports may have any length, and it is
-- empty when the service sent none; such a checksum never equals a computed one.
structure Checksum where
  bytes : Bytes
  deriving DecidableEq

namespace Checksum

def compute (content : Bytes) : Checksum := ⟨Digest.Md5.digest content⟩

def ofPieces (pieces : List Bytes) : Checksum :=
  ⟨(pieces.foldl Digest.Md5.Context.feed Digest.Md5.Context.empty).finish⟩

def none : Checksum := ⟨[]⟩

def isEmpty (checksum : Checksum) : Bool := checksum.bytes.isEmpty

-- Hexadecimal digits, or a word of its own for the empty checksum.
def text (checksum : Checksum) : String :=
  if checksum.isEmpty then "<none>" else Bytes.hex checksum.bytes

def pieceSize : Nat := 65536

def pieces : Nat → Bytes → List Bytes
  | 0, _ => []
  | count + 1, content => content.take pieceSize :: pieces count (content.drop pieceSize)

def ofFile (content : Bytes) : Checksum :=
  ofPieces (pieces ((content.length + pieceSize - 1) / pieceSize) content)

end Checksum

end BlobStorage
