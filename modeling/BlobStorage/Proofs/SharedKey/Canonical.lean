import BlobStorage.Proofs.Base64
import BlobStorage.Proofs.Ordered
import BlobStorage.SharedKey.Canonical

-- What authorizing does to headers, and that the text to sign does not see it.
namespace BlobStorage

namespace Http.Headers

variable (headers : Headers)

theorem all_set (name value : String) : (headers.set name value).all name = [value] := by
  simp [all, set, List.filter_append]

theorem all_set_ne {name other : String} (h : other ≠ name) (value : String) :
    (headers.set name value).all other = headers.all other := by
  have hlast : [(name, value)].filter (·.1 == other) = [] := by simp [Ne.symm h]
  have hkept : (headers.filter (·.1 ≠ name)).filter (·.1 == other) =
      headers.filter (·.1 == other) := by
    rw [List.filter_filter]
    refine List.filter_congr fun header _ => ?_
    by_cases heq : header.1 = other
    · simp [heq, h]
    · simp [heq]
  rw [all, all, set, List.filter_append, hlast, hkept, List.append_nil]

-- Setting a name leaves the headers of other names as they are, in their order.
theorem filter_set (name value : String) :
    (headers.set name value).filter (·.1 ≠ name) = headers.filter (·.1 ≠ name) := by
  have hlast : [(name, value)].filter (·.1 ≠ name) = [] := by simp
  rw [set, List.filter_append, List.filter_filter, hlast, List.append_nil]
  simp only [Bool.and_self]

theorem set_set (name value other : String) :
    (headers.set name value).set name other = headers.set name other := by
  rw [set, filter_set, set]

theorem first?_set_ne {name other : String} (h : other ≠ name) (value : String) :
    (headers.set name value).first? other = headers.first? other := by
  have hlast : List.lookup other [(name, value)] = none := by
    rw [lookup_cons_eq_ite, if_neg h, List.lookup_nil]
  unfold first? set
  rw [List.lookup_append, lookup_filter_ne, if_neg h, hlast, Option.or_none]

theorem text?_set_ne {name other : String} (h : other ≠ name) (value : String) :
    (headers.set name value).text? other = headers.text? other := by
  simp only [text?, headers.first?_set_ne h]

theorem isSendable_append (s t : String) : isSendable (s ++ t) = (isSendable s && isSendable t) := by
  rw [isSendable, String.toList_append, List.all_append]
  rfl

end Http.Headers

namespace SharedKey

-- Whether a request can be authorized depends on the account alone.
theorem authorize_eq (credential : Credential) (method : String) (headers : Http.Headers)
    (url : Url) :
    authorize credential method headers url =
      if Http.Headers.isSendable credential.account then
        .ok (headers.set "authorization" (authorization credential method headers url))
      else .error (.invalidCredentials "failed to parse header value") := by
  have hsendable : Http.Headers.isSendable (authorization credential method headers url) =
      Http.Headers.isSendable credential.account := by
    have hscheme : Http.Headers.isSendable "SharedKey " = true := by decide
    have hcolon : Http.Headers.isSendable ":" = true := by decide
    simp only [authorization, Http.Headers.isSendable_append, hscheme, hcolon, Credential.sign,
      Base64.isSendable_encodeText, Bool.true_and, Bool.and_true]
  simp only [authorize, hsendable]

section Authorization

variable (headers : Http.Headers) (value : String)

theorem signedValue_set_authorization {name : String} (h : name ∈ signedHeaders) :
    signedValue (headers.set "authorization" value) name = signedValue headers name := by
  have hne : name ≠ "authorization" := by
    rintro rfl
    exact absurd h (by decide)
  simp only [signedValue, headers.text?_set_ne hne]

theorem serviceHeaders_set_authorization :
    serviceHeaders (headers.set "authorization" value) = serviceHeaders headers := by
  have hother : isServiceHeader "authorization" = false := by decide
  have hkept : (headers.filter (·.1 ≠ "authorization")).filter (isServiceHeader ·.1) =
      headers.filter (isServiceHeader ·.1) := by
    rw [List.filter_filter]
    apply List.filter_congr
    intro h _
    by_cases hname : h.1 = "authorization" <;> simp [hname, hother]
  have hset : (headers.set "authorization" value).filter (isServiceHeader ·.1) =
      headers.filter (isServiceHeader ·.1) := by
    simp only [Http.Headers.set, List.filter_append, hkept, List.filter_cons, hother,
      Bool.false_eq_true, if_false, List.filter_nil, List.append_nil]
  rw [serviceHeaders, hset, serviceHeaders]

theorem stringToSign_set_authorization (account method : String) (url : Url) :
    stringToSign account method (headers.set "authorization" value) url =
      stringToSign account method headers url := by
  have hsigned : (signedHeaders.map fun name =>
      signedValue (headers.set "authorization" value) name ++ "\n") =
      signedHeaders.map fun name => signedValue headers name ++ "\n" := by
    apply List.map_congr_left
    intro name hname
    rw [signedValue_set_authorization headers value hname]
  rw [stringToSign, hsigned, serviceHeaders_set_authorization, stringToSign]

end Authorization

end SharedKey

end BlobStorage
