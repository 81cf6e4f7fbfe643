import BlobStorage.Http.Message
import BlobStorage.Url.Parser

-- Redirects: an answer may send a request on to another address, and the HTTP client goes there by
-- itself before anybody is told of the answer.
namespace BlobStorage.Http

-- How the client goes on. What the address in an answer means, seen from the URL that was asked for,
-- is for a library of URLs to say; it is none if no request could name it. `limit` is how often one
-- request may be sent on.
structure Redirects where
  resolve : Url → String → Option Url
  limit : Nat

def Redirects.absolute : Redirects := ⟨fun _ address => (Url.parse address).toOption, 10⟩

namespace Request

def bodyHeaders : List String :=
  ["transfer-encoding", "content-encoding", "content-type", "content-length"]

-- Headers that are meant for one host and port only.
def credentialHeaders : List String :=
  ["authorization", "cookie", "cookie2", "proxy-authorization", "www-authenticate"]

def without (names : List String) (r : Request) : Request :=
  { r with headers := r.headers.filter fun header => !names.contains header.1 }

-- What is asked for at another address, if the status sends the request there. The first statuses ask
-- to look for something there. The others ask for the same again, which a body does not allow: it is a
-- stream, and has been read.
def onward? (r : Request) (status : Nat) : Option Request :=
  if [301, 302, 303].contains status then
    some { r.without bodyHeaders with method := if r.method = "HEAD" then "HEAD" else "GET", body := none }
  else if [307, 308].contains status ∧ r.body = none then some r
  else none

-- The request with the address that it came from, unless that is confidential.
def referring (r : Request) (next : Url) : Request :=
  if r.url.scheme = "https" ∧ next.scheme = "http" then r
  else { r with headers := r.headers.set "referer" r.url.text }

-- The request as it is sent to another URL. It is not signed again.
def movedTo (r : Request) (next : Url) : Request :=
  let r' := if next.site = r.url.site then r.referring next
    else (r.referring next).without credentialHeaders
  { r' with url := next.target }

end Request

def Redirects.next? (redirects : Redirects) (r : Request) (answer : Response) : Option Request :=
  (r.onward? answer.status).bind fun onward =>
    ((answer.headers.first? "location").bind (redirects.resolve r.url)).map onward.movedTo

end BlobStorage.Http
