import BlobStorage.Bytes

-- What the digests share: messages are cut into blocks of 64 bytes, and blocks into words of 32 bits.
namespace BlobStorage.Digest

def blocks : Nat → Bytes → List Bytes
  | 0, _ => []
  | count + 1, bytes => bytes.take 64 :: blocks count (bytes.drop 64)

-- How many zero bytes lie between the mark behind a message and its length.
def zeroCount (length : Nat) : Nat := (119 - length % 64) % 64

def littleEndian : Nat → Nat → Bytes
  | 0, _ => []
  | width + 1, n => UInt8.ofNat (n % 256) :: littleEndian width (n / 256)

def bigEndian (width n : Nat) : Bytes := (littleEndian width n).reverse

def littleWords : Bytes → List UInt32
  | a :: b :: c :: d :: rest =>
    UInt32.ofNat (a.toNat + 256 * (b.toNat + 256 * (c.toNat + 256 * d.toNat))) :: littleWords rest
  | _ => []

def bigWords : Bytes → List UInt32
  | a :: b :: c :: d :: rest =>
    UInt32.ofNat (d.toNat + 256 * (c.toNat + 256 * (b.toNat + 256 * a.toNat))) :: bigWords rest
  | _ => []

def rotateLeft (x n : UInt32) : UInt32 := (x <<< n) ||| (x >>> (32 - n))

def rotateRight (x n : UInt32) : UInt32 := (x >>> n) ||| (x <<< (32 - n))

end BlobStorage.Digest
