import BlobStorage.Session
import BlobStorage.SignPolicy
import BlobStorage.Text.Lower

-- What a blobstore promises on top of a backend: uploads are verified and taken back if they differ,
-- deleting what is absent succeeds, absence is an answer and no failure, signed URLs are limited to
-- one action, and listings have no pages.
namespace BlobStorage

inductive SignAction where
  | get
  | put
  deriving DecidableEq, Repr

namespace SignAction

def parse (s : String) : Except Failure SignAction :=
  if Text.asciiLower s = "get" then .ok .get
  else if Text.asciiLower s = "put" then .ok .put
  else .error (.actionNotSupported s)

-- The first write to an absent blob creates it.
def permissions : SignAction → Permissions
  | .get => .readOnly
  | .put => .readWrite

def timeout (action : SignAction) (policy : SignPolicy) : Span :=
  match action with
  | .get => policy.read
  | .put => policy.write

end SignAction

-- Whether a blob exists, as far as that could be found out.
inductive Existence where
  | present
  | absent
  | unknown (failure : Failure)

def Existence.toResult : Existence → Except Failure Bool
  | .present => .ok true
  | .absent => .ok false
  | .unknown failure => .error failure

structure Client (σ : Type) where
  backend : Backend σ
  policy : SignPolicy

namespace Client

variable {σ : Type}

-- Takes back an upload that was not what it should be. That this fails is only noted.
def takeBack (c : Client σ) (key : String) (s : Session σ) : Session σ :=
  match s.call (c.backend.remove · key) with
  | (.ok _, s) => s
  | (.error failure, s) =>
    s.note (.error "blob deletion failed" [("key", key), ("error", failure.message)])

def inconsistent (key : String) (here there : Checksum) : Event :=
  .warn "The upload failed because of an MD5 inconsistency. Triggering blob deletion ..."
    [("key", key), ("local", here.text), ("remote", there.text)]

-- Uploads a local file and verifies what the service stored. If the checksum that the service reports
-- is not that of the file, the blob is deleted again.
def put (c : Client σ) (path key : String) (s : Session σ) : Except Failure Unit × Session σ :=
  match s.files.read path with
  | .error problem => (.error (.io problem), s)
  | .ok content =>
    let here := Checksum.ofFile content
    match s.call (c.backend.upload · key (.ok content)) with
    | (.error failure, s) => (.error failure, s)
    | (.ok there, s) =>
      if here = there then
        (.ok (), s.note (.info "Successfully uploaded file" [("key", key), ("md5", here.text)]))
      else
        (.error (.checksumMismatch here there), c.takeBack key (s.note (inconsistent key here there)))

-- Writes what a delivery brought into an open file, and gives the size that goes with it.
def receive (delivery : Delivery) (handle : Files.Handle) (s : Session σ) :
    Except Failure Nat × Session σ :=
  match s.files.write handle delivery.content with
  | .error problem => (.error (.io problem), s)
  | .ok files => (delivery.size, { s with files := files })

def download (c : Client σ) (key : String) (handle : Files.Handle) (s : Session σ) :
    Except Failure Nat × Session σ :=
  match s.call (c.backend.download · key) with
  | (.error failure, s) => (.error failure, s)
  | (.ok delivery, s) => receive delivery handle s

def resizing (key : String) (written reported : Nat) : Event :=
  .warn "Truncating file according to the blob size"
    [("key", key), ("written", Nat.repr written), ("reported", Nat.repr reported)]

def adjust (key : String) (reported : Nat) (handle : Files.Handle) (s : Session σ) :
    Except Failure Unit × Session σ :=
  if s.files.length handle = reported then (.ok (), s)
  else
    let s := s.note (resizing key (s.files.length handle) reported)
    match s.files.setLength handle reported with
    | .error problem => (.error (.io problem), s)
    | .ok files => (.ok (), { s with files := files })

def get (c : Client σ) (key : String) (handle : Files.Handle) (s : Session σ) :
    Except Failure Unit × Session σ :=
  match c.download key handle s with
  | (.error failure, s) => (.error failure, s)
  | (.ok reported, s) => adjust key reported handle s

-- Deletes a blob. One that does not exist is already deleted.
def delete (c : Client σ) (key : String) (s : Session σ) : Except Failure Unit × Session σ :=
  match s.call (c.backend.remove · key) with
  | (.ok _, s) => (.ok (), s)
  | (.error failure, s) =>
    if failure.isNotFound then (.ok (), s.note (.info "Blob already absent" [("key", key)]))
    else (.error failure, s)

def pagesFrom (c : Client σ) (under marker : Option String) (s : Session σ) :
    Except Failure (List String) × Session σ :=
  match _h : c.backend.page s.store under marker with
  | ⟨.error failure, events, store⟩ =>
    (.error failure, { s with store := store, events := s.events ++ events })
  | ⟨.ok ⟨names, none⟩, events, store⟩ =>
    (.ok names, { s with store := store, events := s.events ++ events })
  | ⟨.ok ⟨names, some next⟩, events, store⟩ =>
    match c.pagesFrom under (some next)
        { s with store := store, events := s.events ++ events } with
    | (.ok more, s) => (.ok (names ++ more), s)
    | (.error failure, s) => (.error failure, s)
termination_by c.backend.pagesLeft s.store under marker
decreasing_by
  have := c.backend.pagesLeft_lt s.store under marker ⟨names, some next⟩ next
  rw [_h] at this
  exact this rfl rfl

-- The names that start with a text; the empty text is no restriction.
def scope (under : String) : Option String := if under = "" then none else some under

def listed (under : String) (names : List String) : Event :=
  .info "Listed blobs"
    [("prefix", Text.quoted? (scope under)), ("count", Nat.repr names.length)]

def list (c : Client σ) (under : String) (s : Session σ) :
    Except Failure (List String) × Session σ :=
  match c.pagesFrom (scope under) none s with
  | (.ok names, s) => (.ok names, s.note (listed under names))
  | (.error failure, s) => (.error failure, s)

def undeleted (key : String) (failure : Failure) : Event :=
  .warn "Failed to delete blob" [("key", key), ("error", failure.message)]

-- Deletes one blob after the other, whatever happens to any of them, and gives those that failed.
def deleteAll (c : Client σ) : List String → Session σ → List (String × Failure) × Session σ
  | [], s => ([], s)
  | key :: keys, s =>
    match c.delete key s with
    | (.ok _, s) => c.deleteAll keys s
    | (.error failure, s) =>
      let (failures, s) := c.deleteAll keys (s.note (undeleted key failure))
      ((key, failure) :: failures, s)

def deleting (under : String) (keys : List String) : Event :=
  .info "Deleting blobs" [("prefix", under), ("count", Nat.repr keys.length)]

-- Deletes every blob whose name starts with a text. If they cannot be listed nothing is deleted.
def deleteRecursive (c : Client σ) (under : String) (s : Session σ) :
    Except Failure Unit × Session σ :=
  match c.list under s with
  | (.error failure, s) => (.error failure, s)
  | (.ok keys, s) =>
    match c.deleteAll keys (s.note (deleting under keys)) with
    | ([], s) => (.ok (), s)
    | (failures, s) => (.error (.deletesFailed under failures), s)

def existence (c : Client σ) (key : String) (s : Session σ) : Existence × Session σ :=
  match s.call (c.backend.properties · key) with
  | (.ok _, s) => (.present, s.note (.info "Blob exists" [("key", key)]))
  | (.error failure, s) =>
    if failure.isNotFound then (.absent, s.note (.info "Blob does not exist" [("key", key)]))
    else (.unknown failure, s)

-- The longest validity that can be counted in milliseconds.
def maxValidity : Nat := 0x7fffffffffffffff * 1000000

def expiry (now : Instant) (validity : Span) : Except Failure Instant :=
  if maxValidity < validity.nanos then
    .error (.invalidInput ("validity " ++ validity.text ++ " is too long"))
  else
    match now.after? validity with
    | some t => .ok t
    | none => .error (.invalidInput "validity is too long")

def timeoutParameter (c : Client σ) (action : SignAction) : String × String :=
  ("timeout", Nat.repr (action.timeout c.policy).seconds)

def sign (c : Client σ) (key action : String) (validity : Span) (s : Session σ) :
    Except Failure String × Session σ :=
  match SignAction.parse action with
  | .error failure => (.error failure, s)
  | .ok action =>
    match expiry c.backend.now validity with
    | .error failure => (.error failure, s)
    | .ok expiry =>
      match s.call (c.backend.signedUrl · key action.permissions expiry) with
      | (.error failure, s) => (.error failure, s)
      | (.ok url, s) => (.ok (url.appendQuery [c.timeoutParameter action]).text, s)

def copy (c : Client σ) (source dest : String) (s : Session σ) : Except Failure Unit × Session σ :=
  match s.call (c.backend.copy · source dest) with
  | (.error failure, s) => (.error failure, s)
  | (.ok _, s) => (.ok (), s.note (.info "Copied blob" [("source", source), ("dest", dest)]))

end Client

end BlobStorage
