import BlobStorage.Proofs.Client.Steps
import BlobStorage.Proofs.Service.Upload

-- Whatever a session does, every request that the service receives is signed as it arrives, or a
-- redirect made it of one that was. Those have the authorization of the first request, which is not
-- made for them, and on other hosts they have none.
namespace BlobStorage.Service

section Keeps

variable {e : Endpoint} {P : Wire → Prop}

theorem andThen_keeps {α β : Type} {reply : Reply Wire α} {next : α → Wire → Reply Wire β}
    (h : P reply.store) (hnext : ∀ a wire, P wire → P (next a wire).store) :
    P (reply.andThen next).store := by
  unfold Reply.andThen
  split
  · exact h
  · exact hnext _ _ h

theorem withBlob_keeps {α : Type} {key : String} {wire : Wire} {next : Url → Reply Wire α}
    (h : P wire) (hnext : ∀ url, P (next url).store) : P (withBlob e key wire next).store := by
  unfold withBlob
  split
  · exact h
  · exact hnext _

theorem uploaded_store (key : String) (r : Http.Response) (wire : Wire) :
    (uploaded key r wire).store = wire := by
  unfold uploaded
  split <;> rfl

theorem finished_store (dest : String) (wire : Wire) (status : Option CopyStatus) :
    (finished dest wire status).store = wire := by
  unfold finished
  split <;> rfl

variable (hsend : ∀ draft wire, P wire → P (send e draft wire).store) {wire : Wire} (h : P wire)
include hsend h

theorem upload_keeps (key : String) (source : Except Files.Problem Bytes) :
    P (upload e wire key source).store := by
  apply withBlob_keeps h
  intro url
  cases source with
  | error problem => exact h
  | ok content =>
    apply andThen_keeps (hsend _ wire h)
    intro r wire h
    split
    · rwa [uploaded_store]
    · exact h

theorem download_keeps (key : String) : P (download e wire key).store := by
  apply withBlob_keeps h
  intro url
  apply andThen_keeps (hsend _ wire h)
  intro r wire h
  split
  · rwa [given_answers]
  · exact h

theorem remove_keeps (key : String) : P (remove e wire key).store := by
  apply withBlob_keeps h
  intro url
  apply andThen_keeps (hsend _ wire h)
  intro r wire h
  split <;> exact h

theorem properties_keeps (key : String) : P (properties e wire key).store := by
  apply withBlob_keeps h
  intro url
  apply andThen_keeps (hsend _ wire h)
  intro r wire h
  split
  · rwa [given_answers]
  · exact h

omit hsend in
theorem signedUrl_keeps (key : String) (permissions : Permissions) (expiry : Instant) :
    P (signedUrl e wire key permissions expiry).store :=
  withBlob_keeps h fun _ => h

theorem page_keeps (under marker : Option String) : P (page e wire under marker).store := by
  unfold page
  split
  · exact h
  · apply andThen_keeps (hsend _ wire h)
    intro r wire h
    split
    · rwa [given_answers]
    · exact h

omit h in
theorem poll_keeps (fuel : Nat) (dest : String) (status : Option CopyStatus) (wire : Wire)
    (h : P wire) : P (poll fuel e dest status wire).store := by
  induction fuel generalizing status wire with
  | zero => exact h
  | succ fuel ih =>
    match status with
    | some .pending =>
      apply andThen_keeps (properties_keeps hsend h dest)
      intro found wire h
      exact ih found.copyStatus wire h
    | none | some .success | some .aborted | some .failed => exact h

theorem copy_keeps (source dest : String) : P (copy e wire source dest).store := by
  apply withBlob_keeps h
  intro sourceUrl
  apply withBlob_keeps h
  intro destUrl
  apply andThen_keeps (hsend _ wire h)
  intro r wire h
  split
  · apply andThen_keeps (poll_keeps hsend _ dest _ wire h)
    intro status wire h
    rwa [finished_store]
  · exact h

omit h in
-- What every exchange keeps, the backend keeps.
theorem backend_keeps : (backend e).Keeps P := by
  intro wire call h
  cases call with
  | upload key source => exact upload_keeps hsend h key source
  | download key => exact download_keeps hsend h key
  | remove key => exact remove_keeps hsend h key
  | properties key => exact properties_keeps hsend h key
  | signedUrl key permissions expiry => exact signedUrl_keeps h key permissions expiry
  | page under marker => exact page_keeps hsend h under marker
  | copy source dest => exact copy_keeps hsend h source dest

end Keeps

def signature (credential : SharedKey.Credential) (r : Http.Request) : String :=
  credential.sign (SharedKey.stringToSign credential.account r.method r.headers r.url)

-- The request has one authorization, and it is the account's for the request as it is.
def Authenticated (credential : SharedKey.Credential) (r : Http.Request) : Prop :=
  r.headers.all "authorization" =
    ["SharedKey " ++ credential.account ++ ":" ++ signature credential r]

theorem request_authenticated (e : Endpoint) (draft : Http.Request) :
    Authenticated e.credential (request e draft) := by
  unfold Authenticated signature request
  simp only [Http.Headers.all_set, SharedKey.stringToSign_set_authorization]
  rfl

-- A request that was signed, and those that redirects made of it.
structure Chain (credential : SharedKey.Credential) (redirects : Http.Redirects) where
  first : Http.Request
  onward : List Http.Request
  authenticated : Authenticated credential first
  redirected : Http.Onward redirects first onward

namespace Chain

variable {credential : SharedKey.Credential} {redirects : Http.Redirects}

def requests (chain : Chain credential redirects) : List Http.Request := chain.first :: chain.onward

-- A request that a redirect made, with those made before it.
theorem authorization (chain : Chain credential redirects) {front back : List Http.Request}
    {r : Http.Request} (h : chain.onward = front ++ r :: back) :
    r.headers.all "authorization" =
      if ∀ o ∈ front ++ [r], o.url.site = chain.first.url.site
      then chain.first.headers.all "authorization" else [] := by
  have hredirected := chain.redirected
  rw [h] at hredirected
  exact hredirected.authorization

theorem authenticated_iff (chain : Chain credential redirects) {front back : List Http.Request}
    {r : Http.Request} (h : chain.onward = front ++ r :: back) :
    Authenticated credential r ↔
      (∀ o ∈ front ++ [r], o.url.site = chain.first.url.site) ∧
        signature credential chain.first = signature credential r := by
  rw [Authenticated, chain.authorization h, chain.authenticated]
  by_cases hsite : ∀ o ∈ front ++ [r], o.url.site = chain.first.url.site
  · rw [if_pos hsite, List.cons.injEq, String.append_right_inj, and_iff_right hsite,
      and_iff_left rfl]
  · rw [if_neg hsite]
    simp only [hsite, false_and, iff_false]
    exact (List.cons_ne_nil _ _).symm

end Chain

-- Everything that was received is a chain behind the other.
structure Chained (credential : SharedKey.Credential) (redirects : Http.Redirects) (wire : Wire) :
    Prop where
  followed : wire.redirects = redirects
  received : ∃ chains : List (Chain credential redirects),
    wire.received = chains.flatMap Chain.requests

theorem send_store (e : Endpoint) (draft : Http.Request) (wire : Wire) :
    (send e draft wire).store = wire ∨
      (send e draft wire).store = wire.behind (request e draft) := by
  by_cases h : Reachable e draft.url wire
  · rw [send_eq h]
    exact .inr rfl
  · exact .inl (send_unreached h).2

theorem send_chained {e : Endpoint} {redirects : Http.Redirects} (draft : Http.Request)
    (wire : Wire) (h : Chained e.credential redirects wire) :
    Chained e.credential redirects (send e draft wire).store := by
  rcases send_store e draft wire with hstore | hstore
  · rwa [hstore]
  · obtain ⟨rfl, chains, hreceived⟩ := h
    rw [hstore]
    let chain : Chain e.credential wire.redirects :=
      ⟨request e draft, (wire.course (request e draft)).onward, request_authenticated e draft,
        wire.course_onward _⟩
    refine ⟨rfl, chains ++ [chain], ?_⟩
    rw [List.flatMap_append, ← hreceived, List.flatMap_singleton]
    rfl

-- No answer redirects, and everything that was received is signed as it is.
structure AllAuthenticated (credential : SharedKey.Credential) (wire : Wire) : Prop where
  answers : ∀ r, .response r ∈ wire.answers → r.isRedirect = false
  received : ∀ r ∈ wire.received, Authenticated credential r

theorem send_authenticated {e : Endpoint} (draft : Http.Request) (wire : Wire)
    (h : AllAuthenticated e.credential wire) :
    AllAuthenticated e.credential (send e draft wire).store := by
  rcases send_store e draft wire with hstore | hstore
  · rwa [hstore]
  · rw [hstore, (keeps_of_no_redirect h.answers _).behind]
    constructor
    · intro r hr
      exact h.answers r (List.mem_of_mem_tail hr)
    · intro r hr
      rcases List.mem_append.mp hr with hr | hr
      · exact h.received r hr
      · rw [List.mem_singleton.mp hr]
        exact request_authenticated e draft

-- A session, with the answers that the service has ready for each of its steps.
def session (c : Client Wire) (s : Session Wire) : List (List Http.Answer × Step) → Session Wire
  | [] => s
  | (answers, step) :: rest =>
    session c (c.step { s with store := { s.store with answers := answers } } step) rest

theorem session_keeps {c : Client Wire} {P : Wire → Prop} (hkeeps : c.backend.Keeps P)
    (steps : List (List Http.Answer × Step))
    (hanswers : ∀ step ∈ steps, ∀ wire, P wire → P { wire with answers := step.1 })
    (s : Session Wire) (h : P s.store) : P (session c s steps).store := by
  induction steps generalizing s with
  | nil => exact h
  | cons step rest ih =>
    apply ih
    · intro step hstep
      exact hanswers step (List.mem_cons_of_mem _ hstep)
    · apply Client.step_keeps hkeeps
      exact hanswers step List.mem_cons_self s.store h

-- Every request of every session, whichever step sent it. What a redirect made is authenticated just
-- if the authorization of the first request went along and happens to be right for it.
theorem session_authenticated (e : Endpoint) (policy : SignPolicy) (listening : Bool)
    (redirects : Http.Redirects) (files : Files) (steps : List (List Http.Answer × Step)) :
    (∃ chains : List (Chain e.credential redirects),
      (session ⟨backend e, policy⟩ ⟨⟨listening, [], [], redirects⟩, files, []⟩ steps).store.received =
        chains.flatMap Chain.requests ∧
      ∀ chain ∈ chains, Authenticated e.credential chain.first ∧
        ∀ front r back, chain.onward = front ++ r :: back →
          (r.headers.all "authorization" =
            if ∀ o ∈ front ++ [r], o.url.site = chain.first.url.site
            then chain.first.headers.all "authorization" else []) ∧
          (Authenticated e.credential r ↔
            (∀ o ∈ front ++ [r], o.url.site = chain.first.url.site) ∧
              signature e.credential chain.first = signature e.credential r)) ∧
    ((∀ step ∈ steps, ∀ r, .response r ∈ step.1 → r.isRedirect = false) →
      ∀ r ∈ (session ⟨backend e, policy⟩ ⟨⟨listening, [], [], redirects⟩, files, []⟩
          steps).store.received,
        Authenticated e.credential r) := by
  constructor
  · have hkeeps : (backend e).Keeps (Chained e.credential redirects) := backend_keeps send_chained
    have hnone : Chained e.credential redirects ⟨listening, [], [], redirects⟩ := ⟨rfl, [], rfl⟩
    obtain ⟨-, chains, hreceived⟩ := session_keeps (c := ⟨backend e, policy⟩) hkeeps steps
      (fun step _ wire h => ⟨h.followed, h.received⟩) ⟨_, files, []⟩ hnone
    refine ⟨chains, hreceived, fun chain _ => ⟨chain.authenticated, fun front r back h => ?_⟩⟩
    exact ⟨chain.authorization h, chain.authenticated_iff h⟩
  · intro hanswers
    have hkeeps : (backend e).Keeps (AllAuthenticated e.credential) :=
      backend_keeps send_authenticated
    have hnone : AllAuthenticated e.credential ⟨listening, [], [], redirects⟩ :=
      ⟨fun r hr => absurd hr List.not_mem_nil, fun r hr => absurd hr List.not_mem_nil⟩
    exact (session_keeps (c := ⟨backend e, policy⟩) hkeeps steps
      (fun step hstep wire h => ⟨hanswers step hstep, h.received⟩) ⟨_, files, []⟩ hnone).received

section Sample

open Endpoint

theorem session_delete (c : Client Wire) (s : Session Wire) (answers : List Http.Answer)
    (key : String) :
    (session c s [(answers, .delete key)]).store =
      (c.backend.remove { s.store with answers := answers } key).store :=
  Client.delete_store c key _

def deletingSession (answers : List Http.Answer) : Session Wire :=
  session ⟨backend localService, .standard⟩ ⟨⟨true, [], [], .absolute⟩, .empty, []⟩
    [(answers, .delete "blob")]

theorem deletingSession_received (answers : List Http.Answer) :
    (deletingSession answers).store.received =
      request localService (removeRequest blobAddress) ::
        (Wire.course ⟨true, answers, [], .absolute⟩
          (request localService (removeRequest blobAddress))).onward := by
  have hreach : Reachable localService (removeRequest blobAddress).url
      ⟨true, answers, [], .absolute⟩ :=
    ⟨by decide +kernel, by decide +kernel, by decide +kernel, rfl⟩
  rw [deletingSession, session_delete, remove_store localService_blobUrl, send_eq hreach]
  rfl

theorem session_authenticated_delete :
    (deletingSession [.response ⟨202, [], []⟩]).store.received.map (·.method) = ["DELETE"] ∧
      ∀ r ∈ (deletingSession [.response ⟨202, [], []⟩]).store.received,
        Authenticated localService.credential r := by
  have hdirect : ∀ r, .response r ∈ [Http.Answer.response ⟨202, [], []⟩] → r.isRedirect = false := by
    intro r hr
    rw [Http.Answer.response.inj (List.mem_singleton.mp hr)]
    rfl
  constructor
  · rw [deletingSession_received, (keeps_of_no_redirect hdirect _).course]
    rfl
  · apply (session_authenticated localService .standard true .absolute .empty _).2
    intro step hstep r hr
    rw [List.mem_singleton.mp hstep] at hr
    exact hdirect r hr

-- A service that sends the request on to another host.
theorem session_unauthenticated :
    ∃ r ∈ (deletingSession [.response ⟨307, [("location", "http://elsewhere.local/releases/blob")],
          []⟩, .response ⟨202, [], []⟩]).store.received,
      r.method = "DELETE" ∧ r.headers.all "authorization" = [] ∧
        ¬Authenticated localService.credential r := by
  have honward : ∃ r ∈ (Wire.course ⟨true,
        [.response ⟨307, [("location", "http://elsewhere.local/releases/blob")], []⟩,
          .response ⟨202, [], []⟩], [], .absolute⟩
        (request localService (removeRequest blobAddress))).onward,
      r.method = "DELETE" ∧ r.headers.all "authorization" = [] := by
    decide +kernel
  obtain ⟨r, hr, hmethod, hnone⟩ := honward
  rw [deletingSession_received]
  refine ⟨r, List.mem_cons_of_mem _ hr, hmethod, hnone, ?_⟩
  rw [Authenticated, hnone]
  exact (List.cons_ne_nil _ _).symm

end Sample

end BlobStorage.Service
