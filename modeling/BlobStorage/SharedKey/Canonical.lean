import BlobStorage.Http.Header
import BlobStorage.Ordered
import BlobStorage.SharedKey.Credential

-- The text of a request that its signature covers. It does not depend on the order of what may be
-- reordered on the way.
namespace BlobStorage.SharedKey

def signedHeaders : List String :=
  ["content-encoding", "content-language", "content-length", "content-md5", "content-type", "date",
    "if-modified-since", "if-match", "if-none-match", "if-unmodified-since", "range"]

-- The value of a standard header; an absent one, one that is no text, and a length of zero are empty.
def signedValue (headers : Http.Headers) (name : String) : String :=
  let value := (headers.text? name).getD ""
  if name = "content-length" ∧ value = "0" then "" else value

def isServiceHeader (name : String) : Bool := "x-ms-".toList.isPrefixOf name.toList

def serviceValue (value : String) : String :=
  if Http.Headers.isText value then Text.trim value else ""

-- The service's own headers in order of their names; of a repeated one the last counts.
def serviceHeaders (headers : Http.Headers) : List (String × String) :=
  (headers.filter fun h => isServiceHeader h.1).foldl
    (fun entries h => Ordered.insert h.1 (serviceValue h.2) entries) []

-- The values of every query parameter, names in small letters and in order.
def parameters (pairs : List (String × String)) : List (String × List String) :=
  pairs.foldl
    (fun entries pair =>
      Ordered.update (Text.lowercase pair.1) (fun values => values.getD [] ++ [pair.2]) entries)
    []

def sortTexts (texts : List String) : List String :=
  texts.mergeSort fun a b => !decide (b < a)

def canonicalResource (account : String) (url : Url) : String :=
  let path := url.path.text
  "/" ++ account ++ (if path = "" then "/" else path)
    ++ String.join ((parameters url.queryPairs).map fun (name, values) =>
      "\n" ++ name ++ ":" ++ ",".intercalate (sortTexts values))

def stringToSign (account method : String) (headers : Http.Headers) (url : Url) : String :=
  method ++ "\n" ++ String.join (signedHeaders.map fun name => signedValue headers name ++ "\n")
    ++ String.join ((serviceHeaders headers).map fun (name, value) => name ++ ":" ++ value ++ "\n")
    ++ canonicalResource account url

def authorization (credential : Credential) (method : String) (headers : Http.Headers) (url : Url) :
    String :=
  "SharedKey " ++ credential.account ++ ":"
    ++ credential.sign (stringToSign credential.account method headers url)

-- The headers with their one authorization. An account whose name cannot be sent has none.
def authorize (credential : Credential) (method : String) (headers : Http.Headers) (url : Url) :
    Except Failure Http.Headers :=
  let value := authorization credential method headers url
  if Http.Headers.isSendable value then .ok (headers.set "authorization" value)
  else .error (.invalidCredentials "failed to parse header value")

end BlobStorage.SharedKey
