import BlobStorage.Ordered
import BlobStorage.Store.Backend

-- A store in memory. Blobs are kept in the order of their names, every call is recorded, and calls can
-- be made to fail.
namespace BlobStorage.Memory

inductive Operation where
  | upload
  | download
  | delete
  | getProperties
  | signedUrl
  | listPage
  | copy
  deriving DecidableEq, Repr

namespace Operation

def all : List Operation := [upload, download, delete, getProperties, signedUrl, listPage, copy]

def name : Operation → String
  | upload => "Upload"
  | download => "Download"
  | delete => "Delete"
  | getProperties => "GetProperties"
  | signedUrl => "SignedUrl"
  | listPage => "ListPage"
  | copy => "Copy"

def ofName? (s : String) : Option Operation := all.find? (·.name == s)

end Operation

-- A recorded call, with the blob's name, the start of the names for a listing, or a copy's source.
structure Call where
  operation : Operation
  key : String
  deriving DecidableEq, Repr

-- Makes every call of an operation fail, for one key or for all.
structure Fault where
  operation : Operation
  key : Option String
  failure : String → Failure

def Fault.hits (fault : Fault) (call : Call) : Bool :=
  fault.operation == call.operation && (match fault.key with | some key => key == call.key | none => true)

structure Catalog where
  entries : List (String × Bytes)
  ascending : Ordered.Ascending entries

namespace Catalog

def empty : Catalog := ⟨[], .nil⟩

def content? (catalog : Catalog) (key : String) : Option Bytes :=
  Ordered.find? key catalog.entries

def keys (catalog : Catalog) : List String := catalog.entries.map (·.1)

def put (catalog : Catalog) (key : String) (content : Bytes) : Catalog :=
  ⟨Ordered.insert key content catalog.entries, Ordered.ascending_update catalog.ascending⟩

def erase (catalog : Catalog) (key : String) : Catalog :=
  ⟨Ordered.erase key catalog.entries, Ordered.ascending_erase catalog.ascending⟩

def keysUnder (catalog : Catalog) (under : String) : List String :=
  catalog.keys.filter fun key => under.toList.isPrefixOf key.toList

end Catalog

structure Settings where
  pageSize : Nat := 1000
  pageSize_pos : 0 < pageSize := by decide
  corruptUploads : Bool := false
  shortDownloads : Bool := false
  faults : List Fault := []

-- Pages have at least one name.
def Settings.withPageSize (settings : Settings) (size : Nat) : Settings :=
  { settings with pageSize := max size 1, pageSize_pos := by omega }

structure Store where
  catalog : Catalog
  calls : List Call

namespace Store

def empty : Store := ⟨.empty, []⟩

-- Puts a blob in place without a call.
def insert (store : Store) (key : String) (content : Bytes) : Store :=
  { store with catalog := store.catalog.put key content }

def callsTo (store : Store) (operation : Operation) : List String :=
  (store.calls.filter (·.operation == operation)).map (·.key)

end Store

-- What a call would give to the blobs as they are: a result, and the blobs afterwards.
abbrev Effect (α : Type) := Catalog → Except Failure α × Catalog

-- What a call gives, unless a fault hits it. The first fault that does decides.
def attempt (settings : Settings) (call : Call) (effect : Effect α) : Effect α := fun catalog =>
  match settings.faults.find? (·.hits call) with
  | some fault => (.error (fault.failure call.key), catalog)
  | none => effect catalog

def enter (settings : Settings) (store : Store) (call : Call) (effect : Effect α) : Reply Store α :=
  let outcome := attempt settings call effect store.catalog
  ⟨outcome.1, [], ⟨outcome.2, store.calls ++ [call]⟩⟩

theorem enter_result (settings : Settings) (store : Store) (call : Call) (effect : Effect α) :
    (enter settings store call effect).result = (attempt settings call effect store.catalog).1 := rfl

theorem enter_catalog (settings : Settings) (store : Store) (call : Call) (effect : Effect α) :
    (enter settings store call effect).store.catalog =
      (attempt settings call effect store.catalog).2 := rfl

theorem enter_calls (settings : Settings) (store : Store) (call : Call) (effect : Effect α) :
    (enter settings store call effect).store.calls = store.calls ++ [call] := rfl

def look (read : Catalog → Except Failure α) : Effect α := fun catalog => (read catalog, catalog)

def present (catalog : Catalog) (key : String) : Except Failure Bytes :=
  match catalog.content? key with
  | some content => .ok content
  | none => .error (.blobNotFound key)

-- The checksum that is reported for an upload; a corrupt one is that of other content.
def reportedChecksum (settings : Settings) (content : Bytes) : Checksum :=
  Checksum.compute (if settings.corruptUploads then content.reverse ++ [0] else content)

def upload (settings : Settings) (key : String) (source : Except Files.Problem Bytes) :
    Effect Checksum := fun catalog =>
  match source with
  | .error problem => (.error (.io problem), catalog)
  | .ok content => (.ok (reportedChecksum settings content), catalog.put key content)

-- A short download lacks the last byte and still reports the full size.
def deliver (settings : Settings) (content : Bytes) : Delivery :=
  ⟨if settings.shortDownloads then content.dropLast else content, .ok content.length⟩

def download (settings : Settings) (key : String) : Effect Delivery :=
  look fun catalog => (present catalog key).map (deliver settings)

def remove (key : String) : Effect Unit := fun catalog =>
  match present catalog key with
  | .error failure => (.error failure, catalog)
  | .ok _ => (.ok (), catalog.erase key)

def properties (key : String) : Effect Properties :=
  look fun catalog => (present catalog key).map fun content =>
    { size := content.length, contentMd5 := some (Checksum.compute content) }

def containerUrl : Url :=
  ⟨"memory", some ⟨"", "", .name "memory", none⟩, .segments [""], none, none⟩

def signedUrl (key : String) (permissions : Permissions) (expiry : Instant) : Effect Url :=
  look fun _ =>
    match containerUrl.extend? Url.Path.popEmpty (Text.split '/' key) with
    | some url => .ok (url.appendQuery [("sp", permissions.text), ("se", expiry.stamp)])
    | none => .error (.invalidInput "memory URL is not a base URL")

-- Where a page starts. Markers are positions in the listing.
def startOf (marker : Option String) : Except Failure Nat :=
  match marker with
  | none => .ok 0
  | some text =>
    match Text.unsigned? Text.word64 text with
    | some start => .ok start
    | none => .error (.badRequest ("invalid marker " ++ text))

def pageAt (pageSize start : Nat) (names : List String) : Page :=
  let stop := min (start + pageSize) names.length
  ⟨(names.take stop).drop start, if stop < names.length then some (Nat.repr stop) else none⟩

-- The position behind a full page has to fit 64 bits.
def page (settings : Settings) (under marker : Option String) : Effect Page :=
  look fun catalog =>
    match startOf marker with
    | .error failure => .error failure
    | .ok start =>
      if Text.word64 ≤ start + settings.pageSize then .error .positionOverflow
      else .ok (pageAt settings.pageSize start (catalog.keysUnder (under.getD "")))

def copy (source dest : String) : Effect Unit := fun catalog =>
  match present catalog source with
  | .error failure => (.error failure, catalog)
  | .ok content => (.ok (), catalog.put dest content)

def pagesLeft (store : Store) (under marker : Option String) : Nat :=
  match startOf marker with
  | .ok start => (store.catalog.keysUnder (under.getD "")).length - start
  | .error _ => 0

theorem pageAt_next {pageSize start : Nat} {names : List String} {next : String}
    (hpos : 0 < pageSize) (h : (pageAt pageSize start names).next = some next) :
    ∃ stop, next = Nat.repr stop ∧ start < stop ∧ stop < names.length ∧ stop ≤ start + pageSize := by
  simp only [pageAt, Option.ite_none_right_eq_some, Option.some.injEq] at h
  exact ⟨_, h.2.symm, by omega, by omega, by omega⟩

theorem attempt_page_ok {settings : Settings} {catalog : Catalog} {call : Call}
    {under marker : Option String} {found : Page}
    (h : (attempt settings call (page settings under marker) catalog).1 = .ok found) :
    ∃ start, startOf marker = .ok start ∧ start + settings.pageSize < Text.word64 ∧
      found = pageAt settings.pageSize start (catalog.keysUnder (under.getD "")) ∧
      (attempt settings call (page settings under marker) catalog).2 = catalog := by
  unfold attempt at h ⊢
  split at h
  · exact nomatch h
  · simp only [page, look] at h ⊢
    cases hstart : startOf marker with
    | error failure => simp [hstart] at h
    | ok start =>
      simp only [hstart] at h
      split at h
      · exact nomatch h
      · rename_i hsum
        exact ⟨start, rfl, by omega, (Except.ok.inj h).symm, trivial⟩

theorem pagesLeft_enter_lt (settings : Settings) (store : Store) (call : Call)
    (under marker : Option String) (found : Page) (next : String)
    (h : (enter settings store call (page settings under marker)).result = .ok found)
    (hnext : found.next = some next) :
    pagesLeft (enter settings store call (page settings under marker)).store under (some next) <
      pagesLeft store under marker := by
  rw [enter_result] at h
  obtain ⟨start, hstart, hsum, rfl, hstore⟩ := attempt_page_ok h
  obtain ⟨stop, rfl, hlt, hlen, hle⟩ := pageAt_next settings.pageSize_pos hnext
  have hstop : startOf (some (Nat.repr stop)) = .ok stop := by
    simp only [startOf]
    rw [Text.unsigned?_repr (by omega : stop < Text.word64)]
  simp only [pagesLeft, hstop, hstart, enter_catalog, hstore]
  omega

def backend (settings : Settings) (now : Instant) : Backend Store where
  now := now
  upload := fun store key source => enter settings store ⟨.upload, key⟩ (upload settings key source)
  download := fun store key => enter settings store ⟨.download, key⟩ (download settings key)
  remove := fun store key => enter settings store ⟨.delete, key⟩ (remove key)
  properties := fun store key => enter settings store ⟨.getProperties, key⟩ (properties key)
  signedUrl := fun store key permissions expiry =>
    enter settings store ⟨.signedUrl, key⟩ (signedUrl key permissions expiry)
  page := fun store under marker =>
    enter settings store ⟨.listPage, under.getD ""⟩ (page settings under marker)
  copy := fun store source dest => enter settings store ⟨.copy, source⟩ (copy source dest)
  pagesLeft := pagesLeft
  pagesLeft_lt := fun store under marker found next =>
    pagesLeft_enter_lt settings store ⟨.listPage, under.getD ""⟩ under marker found next

end BlobStorage.Memory
