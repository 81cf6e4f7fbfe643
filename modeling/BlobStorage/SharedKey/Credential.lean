import BlobStorage.Base64
import BlobStorage.Digest.Sha256
import BlobStorage.Failure
import BlobStorage.Text.Split
import BlobStorage.Text.Quoted

-- The shared key of a storage account signs requests and the URLs that grant access to a blob.
namespace BlobStorage.SharedKey

def apiVersion : String := "2021-08-06"

structure Credential where
  account : String
  key : Bytes

namespace Credential

-- The credential of an account and its key in Base64; blanks around the key do not matter.
def new (account encodedKey : String) : Except Failure Credential :=
  if account = "" then .error (.required "account_name")
  else
    match Base64.decode (Text.utf8 (Text.trim encodedKey)) with
    | .ok key => .ok ⟨account, key⟩
    | .error e => .error (.invalidCredentials ("account_key is not valid base64: " ++ e.message))

def sign (credential : Credential) (s : String) : String :=
  Base64.encodeText (Digest.Hmac.sha256 credential.key (Text.utf8 s))

-- A credential for people to read. The key is not shown.
def displayText (credential : Credential) : String :=
  "SharedKeyCredential \x7b account_name: " ++ Text.quoted credential.account
    ++ ", account_key: \"**********\" \x7d"

end Credential

end BlobStorage.SharedKey
