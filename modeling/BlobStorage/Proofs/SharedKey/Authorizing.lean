import BlobStorage.Proofs.Service.Wire

-- Authorizing a request where it is: the header that is set covers the request that then has it, and a
-- request that cannot have one is left as it was.
namespace BlobStorage.SharedKey

-- How a request is left, and whether it is authorized.
def authorizing (credential : Credential) (request : Http.Request) :
    Except Failure Unit × Http.Request :=
  match authorize credential request.method request.headers request.url with
  | .ok headers => (.ok (), { request with headers := headers })
  | .error failure => (.error failure, request)

-- What is sent is a draft with the common headers as authorizing leaves it.
theorem signed_eq_authorizing (e : Service.Endpoint) (draft : Http.Request) :
    Service.signed e draft =
      let outcome := authorizing e.credential
        { draft with url := draft.url.target, headers := draft.headers ++ Service.commonHeaders e }
      outcome.1.map fun _ => outcome.2 := by
  rw [Service.signed, authorizing]
  cases authorize e.credential draft.method (draft.headers ++ Service.commonHeaders e)
    draft.url.target <;> rfl

-- What a request that was authorized has in common with the one before.
structure Authorized (credential : Credential) (before after : Http.Request) : Prop where
  -- All its authorizations are one, which verifies against the request that has it.
  verifies : after.headers.all "authorization" =
    ["SharedKey " ++ credential.account ++ ":" ++
      credential.sign (stringToSign credential.account after.method after.headers after.url)]
  -- The headers of all other names, in their order.
  others : after.headers.filter (·.1 ≠ "authorization") =
    before.headers.filter (·.1 ≠ "authorization")
  method : after.method = before.method
  url : after.url = before.url
  body : after.body = before.body
  again : authorizing credential after = (.ok (), after)

-- How authorizing ends. The account decides that alone.
inductive AuthorizingEnds (credential : Credential) (before : Http.Request) :
    Except Failure Unit × Http.Request → Prop
  | authorized {after : Http.Request} (account : Http.Headers.isSendable credential.account = true)
      (h : Authorized credential before after) :
      AuthorizingEnds credential before (.ok (), after)
  | refused (account : Http.Headers.isSendable credential.account = false) :
      AuthorizingEnds credential before
        (.error (.invalidCredentials "failed to parse header value"), before)

section Authorizing

variable {credential : Credential} (request : Http.Request)

-- The request with its authorization in place of any that it had.
def authorizedRequest (credential : Credential) (request : Http.Request) : Http.Request :=
  { request with
    headers := request.headers.set "authorization"
      (authorization credential request.method request.headers request.url) }

theorem authorizing_of_sendable (h : Http.Headers.isSendable credential.account = true) :
    authorizing credential request = (.ok (), authorizedRequest credential request) := by
  rw [authorizing, authorize_eq, if_pos h]
  rfl

theorem authorizing_of_unsendable (h : Http.Headers.isSendable credential.account = false) :
    authorizing credential request =
      (.error (.invalidCredentials "failed to parse header value"), request) := by
  rw [authorizing, authorize_eq, h]
  rfl

-- The text to sign does not see the header that is set.
theorem authorization_authorizedRequest (credential : Credential) :
    authorization credential (authorizedRequest credential request).method
        (authorizedRequest credential request).headers (authorizedRequest credential request).url =
      authorization credential request.method request.headers request.url := by
  have hblind := stringToSign_set_authorization request.headers
    (authorization credential request.method request.headers request.url) credential.account
    request.method request.url
  rw [authorization, authorization]
  exact congrArg (fun text => "SharedKey " ++ credential.account ++ ":" ++ credential.sign text) hblind

theorem authorizedRequest_idem :
    authorizedRequest credential (authorizedRequest credential request) =
      authorizedRequest credential request := by
  have hsame := authorization_authorizedRequest request credential
  rw [authorizedRequest, hsame]
  simp only [authorizedRequest, Http.Headers.set_set]

theorem authorizedRequest_authorized (h : Http.Headers.isSendable credential.account = true) :
    Authorized credential request (authorizedRequest credential request) where
  verifies := by
    have hone := Http.Headers.all_set request.headers "authorization"
      (authorization credential request.method request.headers request.url)
    exact hone.trans (congrArg ([·]) (authorization_authorizedRequest request credential).symm)
  others := Http.Headers.filter_set request.headers "authorization" _
  method := rfl
  url := rfl
  body := rfl
  again := by rw [authorizing_of_sendable _ h, authorizedRequest_idem]

end Authorizing

-- Whatever headers a request has, authorizing sets the one that covers it and nothing else, or does
-- nothing at all.
theorem authorizing_ends (credential : Credential) (request : Http.Request) :
    AuthorizingEnds credential request (authorizing credential request) := by
  cases h : Http.Headers.isSendable credential.account with
  | true =>
    rw [authorizing_of_sendable request h]
    exact .authorized h (authorizedRequest_authorized request h)
  | false =>
    rw [authorizing_of_unsendable request h]
    exact .refused h

end BlobStorage.SharedKey
