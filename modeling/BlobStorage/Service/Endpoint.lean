import BlobStorage.Configuration.Basic
import BlobStorage.SharedKey.Canonical
import BlobStorage.Store.Reply
import BlobStorage.Text.Split
import BlobStorage.Time.Instant

-- Where a container is found, and who asks for it.
namespace BlobStorage.Service

structure Endpoint where
  credential : SharedKey.Credential
  -- The address of the account's service without slashes at its end, as text and as it reads.
  address : String
  base : Url
  container : String
  now : Instant

def addressOf (c : Configuration) (override : Option String) : String :=
  let given := override.getD ("https://" ++ c.accountName ++ "." ++ c.environment.endpoint)
  String.ofList (Text.dropRightWhile (· == '/') given.toList)

namespace Endpoint

def new (c : Configuration) (override : Option String) (now : Instant) : Except Failure Endpoint := do
  let credential ← SharedKey.Credential.new c.accountName c.accountKey
  match Url.parse (addressOf c override) with
  | .error problem => .error (.invalidUrl problem)
  | .ok base => .ok ⟨credential, addressOf c override, base, c.containerName, now⟩

def created (e : Endpoint) : Event :=
  .debug "Created Azure blob backend" [("service_url", e.address), ("container", e.container)]

def notBase (e : Endpoint) : Failure := .invalidInput (e.address ++ " is not a base URL")

def containerUrl (e : Endpoint) : Except Failure Url :=
  match e.base.extend? Url.Path.popEmpty [e.container] with
  | some url => .ok url
  | none => .error e.notBase

def hasDotSegment (key : String) : Bool :=
  (Text.split '/' key).any fun segment => segment == "." || segment == ".."

-- The URL of a blob: each part of its name between slashes is a segment of its own.
def blobUrl (e : Endpoint) (key : String) : Except Failure Url :=
  if key = "" then .error (.required "blob name")
  else if hasDotSegment key then
    .error (.invalidInput ("blob name '" ++ key ++ "' must not contain '.' or '..' segments"))
  else do
    let url ← e.containerUrl
    match url.extend? id (Text.split '/' key) with
    | some url => .ok url
    | none => .error e.notBase

end Endpoint

end BlobStorage.Service
