import BlobStorage.Http.Redirect
import BlobStorage.Proofs.SharedKey.Canonical

-- What redirects leave of a request: its authorization goes along as long as the host and the port
-- stay, and is never made anew.
namespace BlobStorage

theorem Url.site_target (url : Url) : url.target.site = url.site := by
  obtain ⟨scheme, authority, path, query, fragment⟩ := url
  cases authority <;> rfl

namespace Http

-- An answer that may send a request on.
def Response.isRedirect (r : Response) : Bool :=
  [301, 302, 303, 307, 308].contains r.status && (r.headers.first? "location").isSome

namespace Request

variable {r onward : Request} {status : Nat}

theorem all_without_of_mem {names : List String} {name : String} (h : name ∈ names) :
    (r.without names).headers.all name = [] := by
  have hnone : ∀ header ∈ (r.without names).headers, ¬(header.1 == name) = true := by
    intro header hheader hname
    have hkept := (List.mem_filter.mp hheader).2
    rw [beq_iff_eq.mp hname, List.contains_iff_mem.mpr h] at hkept
    exact nomatch hkept
  rw [Headers.all, List.filter_eq_nil_iff.mpr hnone, List.map_nil]

theorem all_without_of_not_mem {names : List String} {name : String} (h : name ∉ names) :
    (r.without names).headers.all name = r.headers.all name := by
  have hkept : (r.without names).headers.filter (·.1 == name) = r.headers.filter (·.1 == name) := by
    rw [without, List.filter_filter]
    refine List.filter_congr fun header _ => ?_
    by_cases heq : header.1 = name
    · simp [heq, h]
    · simp [heq]
  rw [Headers.all, Headers.all, hkept]

theorem onward?_url (h : r.onward? status = some onward) : onward.url = r.url := by
  unfold onward? at h
  split at h
  · rw [← Option.some.inj h]
    rfl
  · split at h
    · rw [← Option.some.inj h]
    · exact nomatch h

theorem onward?_authorization (h : r.onward? status = some onward) :
    onward.headers.all "authorization" = r.headers.all "authorization" := by
  unfold onward? at h
  split at h
  · rw [← Option.some.inj h]
    exact all_without_of_not_mem (by decide)
  · split at h
    · rw [← Option.some.inj h]
    · exact nomatch h

theorem onward?_status (h : r.onward? status = some onward) :
    status ∈ [301, 302, 303, 307, 308] := by
  unfold onward? at h
  split at h
  · rename_i hstatus
    exact List.mem_append_left [307, 308] (List.contains_iff_mem.mp hstatus)
  · split at h
    · rename_i hstatus
      exact List.mem_append_right [301, 302, 303] (List.contains_iff_mem.mp hstatus.1)
    · exact nomatch h

theorem referring_authorization (r : Request) (next : Url) :
    (r.referring next).headers.all "authorization" = r.headers.all "authorization" := by
  unfold referring
  split
  · rfl
  · exact Headers.all_set_ne _ (by decide) _

theorem movedTo_authorization (r : Request) (next : Url) :
    (r.movedTo next).headers.all "authorization" =
      if next.site = r.url.site then r.headers.all "authorization" else [] := by
  unfold movedTo
  split
  · exact referring_authorization r next
  · exact all_without_of_mem (by decide)

end Request

namespace Redirects

variable {redirects : Redirects} {r next : Request} {answer : Response}

-- The ways that an answer sends a request on.
theorem next?_eq_some (h : redirects.next? r answer = some next) :
    ∃ onward url, r.onward? answer.status = some onward ∧ onward.movedTo url = next ∧
      answer.isRedirect = true := by
  unfold next? at h
  obtain ⟨onward, honward, h⟩ := Option.bind_eq_some_iff.mp h
  obtain ⟨url, hurl, hnext⟩ := Option.map_eq_some_iff.mp h
  obtain ⟨address, haddress, -⟩ := Option.bind_eq_some_iff.mp hurl
  refine ⟨onward, url, honward, hnext, ?_⟩
  rw [Response.isRedirect, List.contains_iff_mem.mpr (Request.onward?_status honward), haddress]
  rfl

theorem next?_of_not_redirect (h : answer.isRedirect = false) (r : Request) :
    redirects.next? r answer = none := by
  cases hnext : redirects.next? r answer with
  | none => rfl
  | some next =>
    obtain ⟨-, -, -, -, hredirect⟩ := next?_eq_some hnext
    rw [h] at hredirect
    exact nomatch hredirect

theorem next?_of_status (h : answer.status ∉ [301, 302, 303, 307, 308]) (r : Request) :
    redirects.next? r answer = none := by
  refine next?_of_not_redirect ?_ r
  rw [Response.isRedirect, Bool.and_eq_false_iff]
  exact .inl (by simpa using h)

theorem next?_of_ok (h : answer.status = 200) (r : Request) : redirects.next? r answer = none := by
  apply next?_of_status
  simp [h]

theorem next?_authorization (h : redirects.next? r answer = some next) :
    next.headers.all "authorization" =
      if next.url.site = r.url.site then r.headers.all "authorization" else [] := by
  obtain ⟨onward, url, honward, rfl, -⟩ := next?_eq_some h
  have hsite : (onward.movedTo url).url.site = url.site := Url.site_target url
  rw [Request.movedTo_authorization, hsite, Request.onward?_url honward,
    Request.onward?_authorization honward]

end Redirects

-- The requests that redirects made of a request, each of them of the one before.
inductive Onward (redirects : Redirects) : Request → List Request → Prop
  | nil (r : Request) : Onward redirects r []
  | cons {r next : Request} {rest : List Request} (answer : Response)
    (h : redirects.next? r answer = some next) (hrest : Onward redirects next rest) :
    Onward redirects r (next :: rest)

-- An authorization goes along up to the first change of the host or the port, and not behind it.
theorem Onward.authorization {redirects : Redirects} {first r : Request} {front back : List Request}
    (h : Onward redirects first (front ++ r :: back)) :
    r.headers.all "authorization" =
      if ∀ o ∈ front ++ [r], o.url.site = first.url.site then first.headers.all "authorization"
      else [] := by
  induction front generalizing first with
  | nil =>
    obtain _ | ⟨answer, hnext, -⟩ := h
    rw [Redirects.next?_authorization hnext, List.nil_append]
    simp only [List.forall_mem_singleton]
  | cons next front ih =>
    obtain _ | ⟨answer, hnext, hrest⟩ := h
    rw [ih hrest, Redirects.next?_authorization hnext]
    by_cases hsite : next.url.site = first.url.site
    · simp only [hsite, if_true, List.cons_append, List.forall_mem_cons, true_and]
    · simp only [hsite, if_false, ite_self, List.cons_append, List.forall_mem_cons, false_and]

end Http

end BlobStorage
