import BlobStorage.Service.Listing
import BlobStorage.Service.Wire

-- The operations of the service and what its answers mean.
namespace BlobStorage.Service

open Http

-- The code of an error: the header's if it has one, else that of the document.
def errorCode (r : Response) (detail : Option (String × Option String)) : String :=
  match r.headers.text? "x-ms-error-code" with
  | some code => code
  | none => (detail.map (·.1)).getD ""

-- The first line of the document's message, or else the code, or else the status's phrase.
def errorMessage (status : Nat) (code : String) (detail : Option (String × Option String)) :
    String :=
  match (detail.bind (·.2)).bind firstLine? with
  | some line => line
  | none => if code = "" then (Status.reason? status).getD "unknown details" else code

-- The kind of a failure is decided by the status alone, but for a missing container.
def classify (e : Endpoint) (key : String) (status : Nat) (code message : String) : Failure :=
  if status = Status.notFound then
    if code = "ContainerNotFound" then .containerNotFound e.container else .blobNotFound key
  else if status = Status.badRequest then .badRequest message
  else if status = Status.forbidden then .forbidden message
  else if status = Status.conflict then .conflict message
  else .ofStatus status

-- The document of an error answer; a body that cannot be read counts as empty.
def errorDocument (method : String) (r : Response) : String :=
  let received := r.received method
  if received.complete then r.text received.bytes else ""

def codeOf (method : String) (r : Response) : String :=
  errorCode r (errorDetail? (errorDocument method r))

def refusal (e : Endpoint) (method key : String) (r : Response) : Failure :=
  let detail := errorDetail? (errorDocument method r)
  let code := errorCode r detail
  classify e key r.status code (errorMessage r.status code detail)

def failing (method key : String) (r : Response) : Event :=
  .debug "Storage request failed"
    [("status", Nat.repr r.status), ("code", codeOf method r), ("key", key)]

def refuse (e : Endpoint) (method key : String) (r : Response) (wire : Wire) : Reply Wire α :=
  .noting (failing method key r) (.failed wire (refusal e method key r))

def numberHeader? (r : Response) (name : String) : Except Failure (Option Nat) :=
  match r.headers.text? name with
  | none => .ok none
  | some value =>
    match Text.unsigned? Text.word64 value with
    | some n => .ok (some n)
    | none => .error (.malformedResponse (name ++ " is not a number: " ++ value))

def checksumHeader? (r : Response) : Except Failure (Option Checksum) :=
  match r.headers.text? "content-md5" with
  | none => .ok none
  | some value =>
    match Base64.decode (Text.utf8 value) with
    | .ok bytes => .ok (some ⟨bytes⟩)
    | .error e => .error (.malformedResponse ("content-md5: " ++ e.message))

def copyStatusOf (r : Response) : Option CopyStatus :=
  (r.headers.text? "x-ms-copy-status").bind CopyStatus.parse?

def given (wire : Wire) : Except Failure α → Reply Wire α
  | .ok value => .done wire value
  | .error failure => .failed wire failure

def withBlob (e : Endpoint) (key : String) (wire : Wire) (next : Url → Reply Wire α) :
    Reply Wire α :=
  match e.blobUrl key with
  | .error failure => .failed wire failure
  | .ok url => next url

-- The checksum of an accepted upload. An answer without one gives the empty checksum.
def uploaded (key : String) (r : Response) (wire : Wire) : Reply Wire Checksum :=
  match checksumHeader? r with
  | .error failure => .failed wire failure
  | .ok (some checksum) => .done wire checksum
  | .ok none =>
    .noting (.warn "Upload response carried no content-md5" [("key", key)])
      (.done wire Checksum.none)

def uploadRequest (url : Url) (content : Bytes) : Request :=
  ⟨"PUT", url, [("x-ms-blob-type", "BlockBlob"), ("content-length", Nat.repr content.length)],
    some content⟩

-- What is noted of an upload. The size that a file system gives a folder is left out.
def uploading (url : Url) (source : Except Files.Problem Bytes) : Event :=
  .info "Uploading" (("blob", url.text) ::
    (source.toOption.map fun content => ("size", Nat.repr content.length)).toList)

def upload (e : Endpoint) (wire : Wire) (key : String) (source : Except Files.Problem Bytes) :
    Reply Wire Checksum :=
  withBlob e key wire fun url =>
    .noting (uploading url source) <|
      match source with
      | .error _ => .noting (sending "PUT" url) (.failed wire (trouble url))
      | .ok content =>
        (send e (uploadRequest url content) wire).andThen fun r wire =>
          if r.status = Status.created then uploaded key r wire else refuse e "PUT" key r wire

def getRequest (url : Url) : Request := ⟨"GET", url, [], none⟩

-- What a successful answer delivers. Without a length the size is that of what came.
def delivery (url : Url) (r : Response) (reported : Option Nat) : Delivery :=
  let received := r.received "GET"
  ⟨received.bytes,
    if received.complete then .ok (reported.getD received.bytes.length) else .error (trouble url)⟩

def download (e : Endpoint) (wire : Wire) (key : String) : Reply Wire Delivery :=
  withBlob e key wire fun url =>
    .noting (.info "Downloading" [("blob", url.text)]) <|
      (send e (getRequest url) wire).andThen fun r wire =>
        if r.status = Status.ok then
          given wire ((numberHeader? r "content-length").map (delivery url r))
        else refuse e "GET" key r wire

def removeRequest (url : Url) : Request :=
  ⟨"DELETE", url, [("x-ms-delete-snapshots", "include")], none⟩

def remove (e : Endpoint) (wire : Wire) (key : String) : Reply Wire Unit :=
  withBlob e key wire fun url =>
    .noting (.info "Deleting" [("blob", url.text)]) <|
      (send e (removeRequest url) wire).andThen fun r wire =>
        if Status.isSuccess r.status then .done wire () else refuse e "DELETE" key r wire

def propertiesOf (r : Response) : Except Failure Properties := do
  let size ← numberHeader? r "content-length"
  let md5 ← checksumHeader? r
  .ok {
    size := size.getD 0
    etag := r.headers.text? "etag"
    lastModified := (r.headers.text? "last-modified").bind Instant.ofMailDate?
    contentMd5 := md5
    copyStatus := copyStatusOf r }

def headRequest (url : Url) : Request := ⟨"HEAD", url, [], none⟩

def properties (e : Endpoint) (wire : Wire) (key : String) : Reply Wire Properties :=
  withBlob e key wire fun url =>
    .noting (.debug "Fetching blob properties" [("blob", url.text)]) <|
      (send e (headRequest url) wire).andThen fun r wire =>
        if r.status = Status.ok then given wire (propertiesOf r) else refuse e "HEAD" key r wire

-- Grants start a little in the past, so that clocks need not agree exactly.
def clockSkew : Span := ⟨10000000000⟩

def grant (e : Endpoint) (url : Url) (key : String) (permissions : Permissions) (expiry : Instant) :
    SharedKey.Grant :=
  ⟨e.container, key, permissions.text, e.now.before clockSkew, expiry, url.scheme == "https"⟩

def signedUrl (e : Endpoint) (wire : Wire) (key : String) (permissions : Permissions)
    (expiry : Instant) : Reply Wire Url :=
  withBlob e key wire fun url =>
    .noting (.info "Getting signed url"
        [("blob", url.text), ("permissions", permissions.text), ("expiry", expiry.text)]) <|
      .done wire (url.appendQuery ((grant e url key permissions expiry).query e.credential))

def listingQuery (under marker : Option String) : List (String × String) :=
  [("restype", "container"), ("comp", "list")]
    ++ ((under.filter (· ≠ "")).map fun u => ("prefix", u)).toList
    ++ (marker.map fun m => ("marker", m)).toList

def listed (url : Url) (r : Response) : Except Failure Page :=
  let received := r.received "GET"
  if received.complete then parseListing (r.text received.bytes) else .error (trouble url)

def listing (e : Endpoint) (under marker : Option String) : Event :=
  .debug "Listing blobs" [("container", e.container), ("prefix", Text.quoted? under),
    ("marker", Text.quoted? marker)]

def page (e : Endpoint) (wire : Wire) (under marker : Option String) : Reply Wire Page :=
  match e.containerUrl with
  | .error failure => .failed wire failure
  | .ok url =>
    let url := url.appendQuery (listingQuery under marker)
    .noting (listing e under marker) <|
      (send e (getRequest url) wire).andThen fun r wire =>
        if r.status = Status.ok then given wire (listed url r)
        else refuse e "GET" (under.getD "") r wire

def poll : Nat → Endpoint → String → Option CopyStatus → Wire → Reply Wire (Option CopyStatus)
  | fuel + 1, e, dest, some .pending, wire =>
    .noting (.debug "Copy pending" [("destination", dest)]) <|
      (properties e wire dest).andThen fun p wire => poll fuel e dest p.copyStatus wire
  | _, _, _, status, wire => .done wire status

def copyRequest (source dest : Url) : Request :=
  ⟨"PUT", dest, [("x-ms-copy-source", source.text), ("content-length", "0")], none⟩

def finished (dest : String) (wire : Wire) : Option CopyStatus → Reply Wire Unit
  | some .aborted => .failed wire (.copyFailed dest CopyStatus.aborted.text)
  | some .failed => .failed wire (.copyFailed dest CopyStatus.failed.text)
  | _ => .done wire ()

-- Copies a blob. Every poll takes one of the answers that are left, so that there cannot be more.
def copy (e : Endpoint) (wire : Wire) (source dest : String) : Reply Wire Unit :=
  withBlob e source wire fun sourceUrl =>
    withBlob e dest wire fun destUrl =>
      .noting (.info "Copying" [("source", sourceUrl.text), ("destination", destUrl.text)]) <|
        (send e (copyRequest sourceUrl destUrl) wire).andThen fun r wire =>
          if Status.isSuccess r.status then
            (poll (wire.answers.length + 1) e dest (copyStatusOf r) wire).andThen
              fun status wire => finished dest wire status
          else refuse e "PUT" source r wire

theorem andThen_answers {α β : Type} {reply : Reply Wire α} {next : α → Wire → Reply Wire β}
    {value : β} {bound : Nat} (h : (reply.andThen next).result = .ok value)
    (hreply : ∀ a, reply.result = .ok a → reply.store.answers.length < bound)
    (hnext : ∀ a wire, (next a wire).store.answers = wire.answers) :
    (reply.andThen next).store.answers.length < bound := by
  unfold Reply.andThen at h ⊢
  split at h
  · exact nomatch h
  · rename_i a heq
    simp only [hnext]
    exact hreply a heq

theorem given_answers (wire : Wire) (e : Except Failure α) : (given wire e).store = wire := by
  cases e <;> rfl

theorem page_answers {e : Endpoint} {wire : Wire} {under marker : Option String} {found : Page}
    (h : (page e wire under marker).result = .ok found) :
    (page e wire under marker).store.answers.length < wire.answers.length := by
  unfold page at h ⊢
  split at h
  · exact nomatch h
  · refine andThen_answers h (fun _ hsend => send_answers hsend) fun r wire => ?_
    split
    · rw [given_answers]
    · rfl

def backend (e : Endpoint) : Backend Wire where
  now := e.now
  upload := fun wire key source => upload e wire key source
  download := fun wire key => download e wire key
  remove := fun wire key => remove e wire key
  properties := fun wire key => properties e wire key
  signedUrl := fun wire key permissions expiry => signedUrl e wire key permissions expiry
  page := fun wire under marker => page e wire under marker
  copy := fun wire source dest => copy e wire source dest
  pagesLeft := fun wire _ _ => wire.answers.length
  pagesLeft_lt := fun _ _ _ _ _ h _ => page_answers h

end BlobStorage.Service
