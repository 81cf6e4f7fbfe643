import BlobStorage.Digest.Block

namespace BlobStorage.Digest.Md5

structure State where
  a : UInt32
  b : UInt32
  c : UInt32
  d : UInt32
  deriving DecidableEq

def initial : State := ⟨0x67452301, 0xefcdab89, 0x98badcfe, 0x10325476⟩

-- The integer parts of 2^32 · |sin i| for i from 1 to 64.
def sines : Array UInt32 := #[
  0xd76aa478, 0xe8c7b756, 0x242070db, 0xc1bdceee, 0xf57c0faf, 0x4787c62a, 0xa8304613, 0xfd469501,
  0x698098d8, 0x8b44f7af, 0xffff5bb1, 0x895cd7be, 0x6b901122, 0xfd987193, 0xa679438e, 0x49b40821,
  0xf61e2562, 0xc040b340, 0x265e5a51, 0xe9b6c7aa, 0xd62f105d, 0x02441453, 0xd8a1e681, 0xe7d3fbc8,
  0x21e1cde6, 0xc33707d6, 0xf4d50d87, 0x455a14ed, 0xa9e3e905, 0xfcefa3f8, 0x676f02d9, 0x8d2a4c8a,
  0xfffa3942, 0x8771f681, 0x6d9d6122, 0xfde5380c, 0xa4beea44, 0x4bdecfa9, 0xf6bb4b60, 0xbebfbc70,
  0x289b7ec6, 0xeaa127fa, 0xd4ef3085, 0x04881d05, 0xd9d4d039, 0xe6db99e5, 0x1fa27cf8, 0xc4ac5665,
  0xf4292244, 0x432aff97, 0xab9423a7, 0xfc93a039, 0x655b59c3, 0x8f0ccc92, 0xffeff47d, 0x85845dd1,
  0x6fa87e4f, 0xfe2ce6e0, 0xa3014314, 0x4e0811a1, 0xf7537e82, 0xbd3af235, 0x2ad7d2bb, 0xeb86d391]

def shifts : Array UInt32 := #[7, 12, 17, 22, 5, 9, 14, 20, 4, 11, 16, 23, 6, 10, 15, 21]

-- The mixing function of step `i` and the word that it takes.
def mix (s : State) (i : Nat) : UInt32 × Nat :=
  if i < 16 then ((s.b &&& s.c) ||| (~~~s.b &&& s.d), i)
  else if i < 32 then ((s.d &&& s.b) ||| (~~~s.d &&& s.c), (5 * i + 1) % 16)
  else if i < 48 then (s.b ^^^ s.c ^^^ s.d, (3 * i + 5) % 16)
  else (s.c ^^^ (s.b ||| ~~~s.d), 7 * i % 16)

def step (words : Array UInt32) (s : State) (i : Nat) : State :=
  let (f, word) := mix s i
  let sum := s.a + f + sines.getD i 0 + words.getD word 0
  ⟨s.d, s.b + rotateLeft sum (shifts.getD (i / 16 * 4 + i % 4) 0), s.b, s.c⟩

def compress (s : State) (block : Bytes) : State :=
  let words := (littleWords block).toArray
  let t := (List.range 64).foldl (step words) s
  ⟨s.a + t.a, s.b + t.b, s.c + t.c, s.d + t.d⟩

def State.bytes (s : State) : Bytes :=
  [s.a, s.b, s.c, s.d].flatMap fun word => littleEndian 4 word.toNat

-- The end of a message of the given length: a mark, zeros, and the length in bits modulo 2^64.
def ending (length : Nat) : Bytes :=
  [0x80] ++ List.replicate (zeroCount length) 0 ++ littleEndian 8 (8 * length)

def digest (message : Bytes) : Bytes :=
  let padded := message ++ ending message.length
  ((blocks (padded.length / 64) padded).foldl compress initial).bytes

-- A digest in progress: the blocks taken so far, the bytes that do not fill one yet, and the count of
-- all bytes.
structure Context where
  state : State
  pending : Bytes
  length : Nat

def Context.empty : Context := ⟨initial, [], 0⟩

def Context.feed (context : Context) (piece : Bytes) : Context :=
  let bytes := context.pending ++ piece
  let count := bytes.length / 64
  ⟨(blocks count bytes).foldl compress context.state, bytes.drop (64 * count),
    context.length + piece.length⟩

def Context.finish (context : Context) : Bytes :=
  let padded := context.pending ++ ending context.length
  ((blocks (padded.length / 64) padded).foldl compress context.state).bytes

end BlobStorage.Digest.Md5
