import BlobStorage.Proofs.Client.Paging
import BlobStorage.Proofs.Service.Answered

-- A listing follows the markers: one request for each page, the pages one behind the other, and no part
-- of a listing that could not be finished.
namespace BlobStorage.Service

open Http

-- A response with a page in its body.
structure Carries (r : Response) (page : Page) : Prop where
  status : r.status = 200
  complete : (r.received "GET").complete = true
  reads : parseListing (r.text (r.received "GET").bytes) = .ok page

-- A response whose page names the next one.
structure Turn where
  response : Response
  names : List String
  next : String
  carries : Carries response ⟨names, some next⟩

-- What a listing ends with: a page that names no other, or a failure of some kind. A redirect that is
-- followed is neither.
inductive Ends (e : Endpoint) (redirects : Redirects) (under : String) (url : Url) :
    Option Answer → Except Failure (List String) → Prop
  | last {r : Response} {names : List String} (h : Carries r ⟨names, none⟩) :
    Ends e redirects under url (some (.response r)) (.ok names)
  | refused {r : Response} (h : r.status ≠ 200)
    (hkept : redirects.next? (request e (getRequest url)) r = none) :
    Ends e redirects under url (some (.response r)) (.error (refusal e "GET" under r))
  | cut {r : Response} (h : r.status = 200) (hcut : (r.received "GET").complete = false) :
    Ends e redirects under url (some (.response r)) (.error (trouble url))
  | malformed {r : Response} (h : r.status = 200) (hcomplete : (r.received "GET").complete = true)
    {failure : Failure} (hreads : parseListing (r.text (r.received "GET").bytes) = .error failure) :
    Ends e redirects under url (some (.response r)) (.error failure)
  | dropped : Ends e redirects under url (some .dropped) (.error (trouble url.target))
  | exhausted : Ends e redirects under url none (.error (trouble url.target))

-- Whatever the answers are, if none redirects they are pages that each name the next, and then what
-- ends the listing.
theorem exists_turns (e : Endpoint) (redirects : Redirects) (under : String) (url : List Turn → Url)
    {answers : List Answer} (hkept : ∀ r, .response r ∈ answers → r.isRedirect = false) :
    ∃ turns rest outcome, answers = turns.map (fun turn => .response turn.response) ++ rest ∧
      Ends e redirects under (url turns) rest.head? outcome := by
  induction answers generalizing url with
  | nil => exact ⟨[], [], _, rfl, .exhausted⟩
  | cons answer rest ih =>
    cases answer with
    | dropped => exact ⟨[], .dropped :: rest, _, rfl, .dropped⟩
    | response r =>
      by_cases hstatus : r.status = 200
      · cases hcomplete : (r.received "GET").complete with
        | false => exact ⟨[], .response r :: rest, _, rfl, .cut hstatus hcomplete⟩
        | true =>
          cases hreads : parseListing (r.text (r.received "GET").bytes) with
          | error failure =>
            exact ⟨[], .response r :: rest, _, rfl, .malformed hstatus hcomplete hreads⟩
          | ok found =>
            obtain ⟨names, next⟩ := found
            cases next with
            | none => exact ⟨[], .response r :: rest, _, rfl, .last ⟨hstatus, hcomplete, hreads⟩⟩
            | some next =>
              let turn : Turn := ⟨r, names, next, hstatus, hcomplete, hreads⟩
              obtain ⟨turns, behind, outcome, hrest, hends⟩ := ih (fun turns => url (turn :: turns))
                fun r hr => hkept r (List.mem_cons_of_mem _ hr)
              exact ⟨turn :: turns, behind, outcome, by rw [hrest]; rfl, hends⟩
      · have hnext : ∀ request, redirects.next? request r = none :=
          Redirects.next?_of_not_redirect (hkept r List.mem_cons_self)
        exact ⟨[], .response r :: rest, _, rfl, .refused hstatus (hnext _)⟩

-- The URL of a page.
def pageUrl (container : Url) (under : String) (marker : Option String) : Url :=
  container.appendQuery (listingQuery (Client.scope under) marker)

variable {e : Endpoint} {container : Url} {under : String} {marker : Option String} {wire : Wire}

theorem Reply.eq_mk {σ α : Type} {reply : Reply σ α} {result : Except Failure α} {store : σ}
    (hresult : reply.result = result) (hstore : reply.store = store) :
    reply = ⟨result, reply.events, store⟩ := by
  rw [← hresult, ← hstore]

-- What ends a listing is not sent on.
theorem Ends.keeps {url : Url} {outcome : Except Failure (List String)}
    (h : Ends e wire.redirects under url wire.answers.head? outcome) :
    wire.Keeps (request e (getRequest url)) := by
  intro r hr
  generalize hanswer : wire.answers.head? = answer at h
  rw [hanswer] at hr
  cases h with
  | last h =>
    obtain rfl := Answer.response.inj (Option.some.inj hr)
    exact Redirects.next?_of_ok h.status _
  | refused _ hkept =>
    obtain rfl := Answer.response.inj (Option.some.inj hr)
    exact hkept
  | cut h _ =>
    obtain rfl := Answer.response.inj (Option.some.inj hr)
    exact Redirects.next?_of_ok h _
  | malformed h _ _ =>
    obtain rfl := Answer.response.inj (Option.some.inj hr)
    exact Redirects.next?_of_ok h _
  | dropped => exact nomatch hr
  | exhausted => exact nomatch hr

section Page

theorem page_eq (hcontainer : e.containerUrl = .ok container) (wire : Wire) :
    page e wire (Client.scope under) marker =
      .noting (listing e (Client.scope under) marker)
        ((send e (getRequest (pageUrl container under marker)) wire).andThen fun r wire =>
          if r.status = 200 then given wire (listed (pageUrl container under marker) r)
          else refuse e "GET" under r wire) := by
  rw [page, hcontainer, Client.scope_getD]
  rfl

variable (hreach : Reachable e (pageUrl container under marker) wire)
  (hkept : wire.Keeps (request e (getRequest (pageUrl container under marker))))
include hreach hkept

theorem send_page :
    send e (getRequest (pageUrl container under marker)) wire =
      ⟨answered (pageUrl container under marker).target wire.answers.head?,
        [sending "GET" (pageUrl container under marker)],
        { wire with
          answers := wire.answers.tail
          received := wire.received ++ [request e (getRequest (pageUrl container under marker))] }⟩ := by
  rw [send_eq hreach, hkept.course, hkept.behind]
  rfl

variable (hcontainer : e.containerUrl = .ok container)
include hcontainer

theorem page_store :
    (page e wire (Client.scope under) marker).store =
      { wire with
        answers := wire.answers.tail
        received := wire.received ++ [request e (getRequest (pageUrl container under marker))] } := by
  have hsend := send_page hreach hkept
  rw [page_eq hcontainer]
  simp only [Reply.noting, Reply.andThen, hsend]
  split
  · rfl
  · split
    · rw [given_answers]
    · rfl

end Page

-- What a request asks for: its method, its URL up to the query, and what the query says.
def asked (r : Request) : String × Url × List (String × String) :=
  (r.method, { r.url with query := none }, r.url.queryPairs)

section Sample

open Endpoint

end Sample

end BlobStorage.Service
