import BlobStorage.SharedKey.Credential
import BlobStorage.Time.Instant

-- Signed grants of access to one blob.
namespace BlobStorage

structure Permissions where
  read : Bool
  create : Bool
  write : Bool
  deriving DecidableEq, Repr

namespace Permissions

def readOnly : Permissions := ⟨true, false, false⟩

def readWrite : Permissions := ⟨true, true, true⟩

-- One letter each, in the order that the service requires.
def text (p : Permissions) : String :=
  (if p.read then "r" else "") ++ (if p.create then "c" else "") ++ (if p.write then "w" else "")

end Permissions

namespace SharedKey

structure Grant where
  container : String
  blob : String
  permissions : String
  start : Instant
  expiry : Instant
  httpsOnly : Bool

namespace Grant

def protocol (grant : Grant) : String := if grant.httpsOnly then "https" else "https,http"

-- The lines that the signature of a grant covers. The empty ones stand for restrictions that are not
-- used: identifier, address, snapshot, scope, and five response headers.
def lines (account : String) (grant : Grant) : List String :=
  [grant.permissions, grant.start.stamp, grant.expiry.stamp,
    "/blob/" ++ account ++ "/" ++ grant.container ++ "/" ++ grant.blob, "", "", grant.protocol,
    apiVersion, "b", "", "", "", "", "", "", ""]

def stringToSign (account : String) (grant : Grant) : String :=
  "\n".intercalate (grant.lines account)

-- The query parameters that carry a grant, its signature last.
def query (credential : Credential) (grant : Grant) : List (String × String) :=
  [("sv", apiVersion), ("st", grant.start.stamp), ("se", grant.expiry.stamp), ("sr", "b"),
    ("sp", grant.permissions), ("spr", grant.protocol),
    ("sig", credential.sign (grant.stringToSign credential.account))]

end Grant

end SharedKey

end BlobStorage
