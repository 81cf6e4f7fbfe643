import BlobStorage.Proofs.Http.Redirect
import BlobStorage.Service.Wire

-- Sending: which requests the service receives, and when it receives one. Behind a request stand those
-- that redirects made of it.
namespace BlobStorage.Service

-- A request as the service receives it.
def request (e : Endpoint) (draft : Http.Request) : Http.Request :=
  { draft with
    url := draft.url.target
    headers := (draft.headers ++ commonHeaders e).set "authorization"
      (SharedKey.authorization e.credential draft.method (draft.headers ++ commonHeaders e)
        draft.url.target) }

theorem signed_eq (e : Endpoint) (draft : Http.Request) :
    signed e draft =
      if Http.Headers.isSendable e.credential.account then .ok (request e draft)
      else .error (.invalidCredentials "failed to parse header value") := by
  rw [signed, SharedKey.authorize_eq]
  split <;> rfl

-- What has to hold for requests to a URL to be received.
structure Reachable (e : Endpoint) (url : Url) (wire : Wire) : Prop where
  host : hasHost url = true
  account : Http.Headers.isSendable e.credential.account = true
  scheme : canSend url.target = true
  listening : wire.listening = true

theorem Reachable.behind {e : Endpoint} {url : Url} {wire : Wire} (h : Reachable e url wire)
    (request : Http.Request) : Reachable e url (wire.behind request) :=
  ⟨h.host, h.account, h.scheme, h.listening⟩

section Course

variable {redirects : Http.Redirects} {request : Http.Request} {wire : Wire} {r : Http.Response}

theorem follow_of_kept (h : redirects.next? request r = none) (hops : Nat)
    (rest : List Http.Answer) :
    follow redirects hops request (.response r :: rest) = ⟨[], .ok r⟩ := by
  simp only [follow, h]

-- One redirect after the other, as long as there are answers.
theorem follow_onward (redirects : Http.Redirects) (hops : Nat) (request : Http.Request)
    (answers : List Http.Answer) :
    Http.Onward redirects request (follow redirects hops request answers).onward := by
  induction answers generalizing hops request with
  | nil => exact .nil request
  | cons answer rest ih =>
    cases answer with
    | dropped => exact .nil request
    | response r =>
      cases hnext : redirects.next? request r with
      | none =>
        rw [follow_of_kept hnext]
        exact .nil request
      | some next =>
        cases hops with
        | zero =>
          simp only [follow, hnext]
          exact .nil request
        | succ hops =>
          simp only [follow, hnext]
          split
          · exact .cons r hnext (ih hops next)
          · exact .nil request

-- A request that nothing comes back for failed on its way.
theorem follow_lost {hops : Nat} {answers : List Http.Answer} {failure : Failure}
    (h : (follow redirects hops request answers).outcome = .error failure) :
    ∃ text, failure = .http text := by
  induction answers generalizing hops request with
  | nil => exact ⟨_, (Except.error.inj h).symm⟩
  | cons answer rest ih =>
    cases answer with
    | dropped => exact ⟨_, (Except.error.inj h).symm⟩
    | response r =>
      cases hnext : redirects.next? request r with
      | none =>
        rw [follow_of_kept hnext] at h
        exact nomatch h
      | some next =>
        cases hops with
        | zero =>
          simp only [follow, hnext] at h
          exact ⟨_, (Except.error.inj h).symm⟩
        | succ hops =>
          simp only [follow, hnext] at h
          split at h
          · exact ih h
          · exact ⟨_, (Except.error.inj h).symm⟩

theorem course_lost {failure : Failure} (h : (wire.course request).outcome = .error failure) :
    ∃ text, failure = .http text :=
  follow_lost h

-- The next answer does not send a request on.
def Wire.Keeps (wire : Wire) (request : Http.Request) : Prop :=
  ∀ r, wire.answers.head? = some (.response r) → wire.redirects.next? request r = none

theorem keeps_of_no_redirect (h : ∀ r, .response r ∈ wire.answers → r.isRedirect = false)
    (request : Http.Request) : wire.Keeps request := by
  intro r hr
  exact Http.Redirects.next?_of_not_redirect (h r (List.mem_of_head? hr)) request

theorem keeps_of_status {rest : List Http.Answer} (hstatus : r.status ∉ [301, 302, 303, 307, 308])
    (hanswers : wire.answers = .response r :: rest) (request : Http.Request) :
    wire.Keeps request := by
  rintro answer hanswer
  rw [hanswers] at hanswer
  cases hanswer
  exact Http.Redirects.next?_of_status hstatus request

-- What comes back for a request to a URL that the next answer is for, if it is not sent on.
def answered (url : Url) : Option Http.Answer → Except Failure Http.Response
  | some (.response r) => .ok r
  | some .dropped => .error (trouble url)
  | none => .error (trouble url)

theorem Wire.Keeps.course (h : wire.Keeps request) :
    wire.course request = ⟨[], answered request.url wire.answers.head?⟩ := by
  obtain ⟨listening, answers, received, redirects⟩ := wire
  match answers with
  | [] => rfl
  | .dropped :: rest => rfl
  | .response r :: rest => exact follow_of_kept (h r rfl) _ rest

theorem Wire.Keeps.behind (h : wire.Keeps request) :
    wire.behind request =
      { wire with answers := wire.answers.tail, received := wire.received ++ [request] } := by
  rw [Wire.behind, h.course, List.length_nil, List.drop_one]

theorem Wire.course_onward (wire : Wire) (request : Http.Request) :
    Http.Onward wire.redirects request (wire.course request).onward :=
  follow_onward wire.redirects wire.redirects.limit request wire.answers

end Course

variable {e : Endpoint} {draft : Http.Request} {wire : Wire}

theorem send_of_host (hhost : hasHost draft.url = true)
    (haccount : Http.Headers.isSendable e.credential.account = true) :
    send e draft wire =
      .noting (sending draft.method draft.url) (exchange (request e draft) wire) := by
  rw [send, signed_eq, hhost, haccount]
  rfl

-- A request that is received takes its answers, those for what redirects make of it included.
theorem send_eq (h : Reachable e draft.url wire) :
    send e draft wire =
      ⟨(wire.course (request e draft)).outcome, [sending draft.method draft.url],
        wire.behind (request e draft)⟩ := by
  have hsend : (canSend (request e draft).url && wire.listening) = true := by
    rw [h.listening, Bool.and_true]
    exact h.scheme
  rw [send_of_host h.host h.account, exchange, hsend]
  rfl

theorem send_answered (h : Reachable e draft.url wire) {r : Http.Response}
    {rest : List Http.Answer} (hanswers : wire.answers = .response r :: rest)
    (hkept : wire.redirects.next? (request e draft) r = none) :
    (send e draft wire).result = .ok r := by
  rw [send_eq h, Wire.course, hanswers, follow_of_kept hkept]

-- A request that cannot be received fails, and takes no answer.
theorem send_unreached (h : ¬Reachable e draft.url wire) :
    (∃ failure, (send e draft wire).result = .error failure) ∧ (send e draft wire).store = wire := by
  by_cases hhost : hasHost draft.url = true
  · by_cases haccount : Http.Headers.isSendable e.credential.account = true
    · have hsend : ¬(canSend (request e draft).url && wire.listening) = true := fun hsend =>
        h ⟨hhost, haccount, (Bool.and_eq_true_iff.mp hsend).1, (Bool.and_eq_true_iff.mp hsend).2⟩
      rw [send_of_host hhost haccount, exchange, if_neg hsend]
      exact ⟨⟨_, rfl⟩, rfl⟩
    · rw [send, signed_eq, hhost, if_neg haccount]
      exact ⟨⟨_, rfl⟩, rfl⟩
  · rw [send, Bool.eq_false_iff.mpr hhost]
    exact ⟨⟨_, rfl⟩, rfl⟩

theorem reachable_of_send {r : Http.Response} (h : (send e draft wire).result = .ok r) :
    Reachable e draft.url wire := by
  refine Classical.byContradiction fun hunreached => ?_
  obtain ⟨⟨failure, hfailure⟩, -⟩ := send_unreached hunreached
  rw [h] at hfailure
  exact nomatch hfailure

end BlobStorage.Service
