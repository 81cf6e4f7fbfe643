import BlobStorage.Http.Redirect
import BlobStorage.Service.Endpoint
import BlobStorage.Store.Backend

-- The connection to the service: requests are signed, sent and answered in order, and redirects are
-- followed. All hosts answer on one wire. The headers that the HTTP client adds (the host, the types
-- it accepts) and provisional answers are left out.
namespace BlobStorage.Service

-- The answers that are still to come, and the requests that were received. A service that is not
-- listening receives nothing.
structure Wire where
  listening : Bool
  answers : List Http.Answer
  received : List Http.Request
  redirects : Http.Redirects

def trouble (url : Url) : Failure := .http ("error sending request for url (" ++ url.text ++ ")")

def lost (url : Url) : Failure :=
  .http ("error following redirect for url (" ++ url.text ++ "): too many redirects")

def canSend (url : Url) : Bool := url.scheme == "http" || url.scheme == "https"

-- What becomes of a request: the further ones that redirects make of it, and what comes back in the
-- end.
structure Course where
  onward : List Http.Request
  outcome : Except Failure Http.Response

-- Takes one of the answers for the request, and one for each time that it is sent on.
def follow (redirects : Http.Redirects) : Nat → Http.Request → List Http.Answer → Course
  | hops, request, .response r :: rest =>
    match redirects.next? request r, hops with
    | none, _ => ⟨[], .ok r⟩
    | some _, 0 => ⟨[], .error (lost request.url)⟩
    | some next, hops + 1 =>
      if canSend next.url then
        let course := follow redirects hops next rest
        ⟨next :: course.onward, course.outcome⟩
      else ⟨[], .error (trouble next.url)⟩
  | _, request, _ => ⟨[], .error (trouble request.url)⟩
termination_by structural _ _ answers => answers

namespace Wire

def course (wire : Wire) (request : Http.Request) : Course :=
  follow wire.redirects wire.redirects.limit request wire.answers

-- The wire when a request was received, with those that became of it, and their answers taken.
def behind (wire : Wire) (request : Http.Request) : Wire :=
  { wire with
    answers := wire.answers.drop ((wire.course request).onward.length + 1)
    received := wire.received ++ request :: (wire.course request).onward }

end Wire

def exchange (request : Http.Request) (wire : Wire) : Reply Wire Http.Response :=
  if canSend request.url && wire.listening then
    ⟨(wire.course request).outcome, [], wire.behind request⟩
  else .failed wire (trouble request.url)

def hasHost (url : Url) : Bool :=
  match url.authority with
  | some a => a.host ≠ .name ""
  | none => false

def commonHeaders (e : Endpoint) : Http.Headers :=
  [("x-ms-date", e.now.headerText), ("x-ms-version", SharedKey.apiVersion)]

-- A request as it is sent: with the common headers and the authorization that covers them all.
def signed (e : Endpoint) (draft : Http.Request) : Except Failure Http.Request :=
  let url := draft.url.target
  (SharedKey.authorize e.credential draft.method (draft.headers ++ commonHeaders e) url).map
    fun headers => { draft with url := url, headers := headers }

def sending (method : String) (url : Url) : Event :=
  .debug "Sending storage request" [("method", method), ("url", url.withoutUser.text)]

def send (e : Endpoint) (draft : Http.Request) (wire : Wire) : Reply Wire Http.Response :=
  if !hasHost draft.url then .failed wire (.http "builder error")
  else
    match signed e draft with
    | .error failure => .failed wire failure
    | .ok request => .noting (sending draft.method draft.url) (exchange request wire)

theorem behind_answers {wire : Wire} {request : Http.Request} {r : Http.Response}
    (h : (wire.course request).outcome = .ok r) :
    (wire.behind request).answers.length < wire.answers.length := by
  have hsome : wire.answers ≠ [] := by
    intro hnone
    rw [Wire.course, hnone] at h
    exact nomatch h
  have hlength := List.length_pos_iff.mpr hsome
  rw [Wire.behind, List.length_drop]
  omega

theorem exchange_answers {request : Http.Request} {wire : Wire} {r : Http.Response}
    (h : (exchange request wire).result = .ok r) :
    (exchange request wire).store.answers.length < wire.answers.length := by
  unfold exchange at h ⊢
  split at h
  · rename_i hsend
    rw [if_pos hsend]
    exact behind_answers h
  · exact nomatch h

theorem send_answers {e : Endpoint} {draft : Http.Request} {wire : Wire} {r : Http.Response}
    (h : (send e draft wire).result = .ok r) :
    (send e draft wire).store.answers.length < wire.answers.length := by
  unfold send at h ⊢
  split at h
  · exact nomatch h
  · rename_i hhost
    simp only [hhost, Bool.false_eq_true, if_false]
    split at h
    · exact nomatch h
    · exact exchange_answers h

end BlobStorage.Service
