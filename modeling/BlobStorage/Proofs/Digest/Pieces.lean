import BlobStorage.Checksum

-- The digest of content that comes in pieces is that of the content as a whole, and always as long.
namespace BlobStorage

namespace Digest

theorem blocks_append_left (count : Nat) {front : Bytes} (behind : Bytes)
    (h : 64 * count ≤ front.length) : blocks count (front ++ behind) = blocks count front := by
  induction count generalizing front with
  | zero => rfl
  | succ count ih =>
    rw [blocks, blocks, List.take_append_of_le_length (by omega),
      List.drop_append_of_le_length (by omega), ih (by rw [List.length_drop]; omega)]

theorem blocks_add (i j : Nat) (bytes : Bytes) :
    blocks (i + j) bytes = blocks i bytes ++ blocks j (bytes.drop (64 * i)) := by
  induction i generalizing bytes with
  | zero => rw [Nat.zero_add, blocks, List.nil_append, Nat.mul_zero, List.drop_zero]
  | succ i ih =>
    have hdrop : 64 * (i + 1) = 64 + 64 * i := by omega
    rw [Nat.succ_add, blocks, blocks, ih, List.drop_drop, List.cons_append, hdrop]

theorem length_littleEndian (width n : Nat) : (littleEndian width n).length = width := by
  induction width generalizing n with
  | zero => rfl
  | succ width ih => rw [littleEndian, List.length_cons, ih]

end Digest

namespace Digest.Md5

theorem length_digest (message : Bytes) : (digest message).length = 16 := by
  rw [digest, State.bytes]
  simp only [List.flatMap_cons, List.flatMap_nil, List.length_append, length_littleEndian,
    List.length_nil]

-- The context that has taken a message: the whole blocks are digested, and what is left over waits.
structure Context.Holds (context : Context) (message : Bytes) : Prop where
  state : context.state = (blocks (message.length / 64) message).foldl compress initial
  pending : context.pending = message.drop (64 * (message.length / 64))
  length : context.length = message.length

theorem Context.holds_empty : Context.empty.Holds [] := ⟨rfl, rfl, rfl⟩

section Holds

variable {context : Context} {message : Bytes} (h : context.Holds message)

include h

theorem Context.Holds.length_pending : context.pending.length = message.length % 64 := by
  rw [h.pending, List.length_drop]
  omega

-- The blocks of a longer message: those already digested, then those of what waits and what follows.
theorem Context.Holds.digest_append (behind : Bytes) :
    (blocks ((context.pending ++ behind).length / 64) (context.pending ++ behind)).foldl compress
        context.state =
      (blocks ((message ++ behind).length / 64) (message ++ behind)).foldl compress initial := by
  have hpending := h.length_pending
  have hlength : (message ++ behind).length / 64 =
      message.length / 64 + (context.pending ++ behind).length / 64 := by
    simp only [List.length_append, hpending]
    omega
  have hdrop : (message ++ behind).drop (64 * (message.length / 64)) = context.pending ++ behind := by
    rw [List.drop_append_of_le_length (by omega), h.pending]
  have hfront : blocks (message.length / 64) (message ++ behind) =
      blocks (message.length / 64) message := blocks_append_left _ behind (by omega)
  rw [hlength, blocks_add, hdrop, hfront, List.foldl_append, h.state]

theorem Context.Holds.feed (piece : Bytes) : (context.feed piece).Holds (message ++ piece) where
  state := h.digest_append piece
  pending := by
    have hpending := h.length_pending
    have hlength : 64 * ((message ++ piece).length / 64) =
        64 * (message.length / 64) + 64 * ((context.pending ++ piece).length / 64) := by
      simp only [List.length_append, hpending]
      omega
    rw [hlength, ← List.drop_drop, List.drop_append_of_le_length (by omega), ← h.pending]
    rfl
  length := by
    rw [List.length_append, ← h.length]
    rfl

theorem Context.Holds.feeds (pieces : List Bytes) :
    (pieces.foldl Context.feed context).Holds (message ++ pieces.flatten) := by
  induction pieces generalizing context message with
  | nil => rwa [List.foldl_nil, List.flatten_nil, List.append_nil]
  | cons piece more ih =>
    rw [List.foldl_cons, List.flatten_cons, ← List.append_assoc]
    exact ih (h.feed piece)

theorem Context.Holds.finish : context.finish = digest message := by
  have hfinish := h.digest_append (ending message.length)
  rw [← h.length] at hfinish
  rw [Context.finish, digest, hfinish, h.length]

end Holds

end Digest.Md5

namespace Checksum

-- However content is cut into pieces, its checksum is the same.
theorem ofPieces_eq (pieces : List Bytes) : ofPieces pieces = compute pieces.flatten := by
  have h := Digest.Md5.Context.holds_empty.feeds pieces
  rw [List.nil_append] at h
  rw [ofPieces, compute, h.finish]

theorem flatten_pieces (count : Nat) {content : Bytes} (h : content.length ≤ count * pieceSize) :
    (pieces count content).flatten = content := by
  induction count generalizing content with
  | zero =>
    rw [Nat.zero_mul, Nat.le_zero, List.length_eq_zero_iff] at h
    rw [h]
    rfl
  | succ count ih =>
    have hrest : (content.drop pieceSize).length ≤ count * pieceSize := by
      rw [Nat.succ_mul] at h
      rw [List.length_drop]
      omega
    rw [pieces, List.flatten_cons, ih hrest, List.take_append_drop]

-- A file's checksum is that of its content.
theorem ofFile_eq (content : Bytes) : ofFile content = compute content := by
  have hcount : content.length ≤
      (content.length + pieceSize - 1) / pieceSize * pieceSize := by
    simp only [pieceSize]
    omega
  rw [ofFile, ofPieces_eq, flatten_pieces _ hcount]

theorem compute_ne_none (content : Bytes) : compute content ≠ Checksum.none := by
  intro h
  have hlength := congrArg (fun checksum => checksum.bytes.length) h
  simp only [compute, Checksum.none, Digest.Md5.length_digest, List.length_nil] at hlength
  omega

end Checksum

end BlobStorage
