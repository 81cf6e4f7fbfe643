import BlobStorage.Store.Reply
import BlobStorage.SharedKey.Access
import BlobStorage.Time.MailDate

-- What a storage service has to offer. It only moves bytes; what it promises beyond that is that a
-- missing blob is reported as such.
namespace BlobStorage

inductive CopyStatus where
  | pending
  | success
  | aborted
  | failed
  deriving DecidableEq, Repr

namespace CopyStatus

def all : List CopyStatus := [pending, success, aborted, failed]

def text : CopyStatus → String
  | pending => "pending"
  | success => "success"
  | aborted => "aborted"
  | failed => "failed"

def parse? (s : String) : Option CopyStatus := all.find? (·.text == s)

theorem parse?_text (status : CopyStatus) : parse? status.text = some status := by
  cases status <;> rfl

end CopyStatus

structure Properties where
  size : Nat
  etag : Option String := none
  lastModified : Option Instant.Told := none
  contentMd5 : Option Checksum := none
  copyStatus : Option CopyStatus := none

-- A page of a listing, and the marker of the next page unless it is the last.
structure Page where
  names : List String
  next : Option String
  deriving DecidableEq, Repr

-- The bytes of a blob as far as they came, and its size or what went wrong.
structure Delivery where
  content : Bytes
  size : Except Failure Nat

-- The operations on a store whose state is `σ`, under a clock that stands still.
structure Backend (σ : Type) where
  now : Instant
  -- Stores what the source held when it was read, and gives the checksum of what was stored.
  upload : σ → String → Except Files.Problem Bytes → Reply σ Checksum
  -- A failure here means that nothing came at all; one in the delivery, that not everything did.
  download : σ → String → Reply σ Delivery
  remove : σ → String → Reply σ Unit
  properties : σ → String → Reply σ Properties
  signedUrl : σ → String → Permissions → Instant → Reply σ Url
  -- One page of the names that start with a text, from a marker on.
  page : σ → Option String → Option String → Reply σ Page
  copy : σ → String → String → Reply σ Unit
  -- A bound for the number of pages from a marker on, which each page brings down.
  pagesLeft : σ → Option String → Option String → Nat
  pagesLeft_lt : ∀ s under marker found next,
    (page s under marker).result = .ok found → found.next = some next →
      pagesLeft (page s under marker).store under (some next) < pagesLeft s under marker

end BlobStorage
