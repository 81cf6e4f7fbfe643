import BlobStorage.Proofs.SharedKey.Canonical
import BlobStorage.Proofs.Url.Web

-- The text to sign is a canonical form: requests share it if they agree on everything that is signed,
-- and, where its marks stand in no part of them, only then.
namespace BlobStorage

namespace Http

-- The characters of methods and of header names.
def isTokenChar (c : Char) : Bool :=
  c.isAlphanum || "!#$%&'*+-.^_\x60|~".toList.contains c

def IsToken (s : String) : Prop := s ≠ "" ∧ ∀ c ∈ s.toList, isTokenChar c = true

instance (s : String) : Decidable (IsToken s) :=
  @instDecidableAnd _ _ _ (List.decidableBAll (isTokenChar · = true) s.toList)

namespace Headers

theorem all_cons (name value : String) (headers : Headers) (other : String) :
    all ((name, value) :: headers) other =
      if name = other then value :: all headers other else all headers other := by
  by_cases h : name = other
  · simp [all, h]
  · simp [all, h]

theorem newline_not_mem_text {value : String} (h : isText value = true) : '\n' ∉ value.toList := by
  intro hmem
  exact absurd (List.all_eq_true.mp h _ hmem) (by decide)

end Headers

end Http

namespace SharedKey

open Ordered (Ascending)

section Service

end Service

section Parameters

-- Names of parameters are signed in small letters.
def lowered (pair : String × String) : String × String := (Text.lowercase pair.1, pair.2)

def valuesOf (name : String) (pairs : List (String × String)) : List String :=
  (pairs.filter (·.1 == name)).map (·.2)

-- Later values go behind earlier ones.
theorem find?_foldl_update (pairs : List (String × String)) {entries : List (String × List String)}
    (h : Ascending entries) :
    Ascending (pairs.foldl (fun entries pair => Ordered.update (Text.lowercase pair.1)
        (fun values => values.getD [] ++ [pair.2]) entries) entries) ∧
      ∀ name, Ordered.find? name (pairs.foldl (fun entries pair =>
          Ordered.update (Text.lowercase pair.1) (fun values => values.getD [] ++ [pair.2]) entries)
          entries) =
        if valuesOf name (pairs.map lowered) = [] then Ordered.find? name entries
        else some ((Ordered.find? name entries).getD [] ++ valuesOf name (pairs.map lowered)) := by
  induction pairs generalizing entries with
  | nil => exact ⟨h, fun _ => rfl⟩
  | cons pair rest ih =>
    have hupdate : Ascending (Ordered.update (Text.lowercase pair.1)
        (fun values => values.getD [] ++ [pair.2]) entries) := Ordered.ascending_update h
    obtain ⟨hascending, hfind⟩ := ih hupdate
    refine ⟨hascending, fun name => ?_⟩
    have hvalues : valuesOf name ((pair :: rest).map lowered) =
        if name = Text.lowercase pair.1 then pair.2 :: valuesOf name (rest.map lowered)
        else valuesOf name (rest.map lowered) := by
      by_cases hname : name = Text.lowercase pair.1
      · simp [valuesOf, lowered, hname]
      · simp [valuesOf, lowered, hname, Ne.symm hname]
    rw [List.foldl_cons, hfind, Ordered.find?_update h, hvalues]
    by_cases hname : name = Text.lowercase pair.1
    · rw [if_pos hname, if_pos hname, if_neg (List.cons_ne_nil _ _)]
      split
      · rename_i hnil
        rw [hnil, hname]
      · rw [Option.getD_some, List.append_assoc, List.singleton_append, hname]
    · rw [if_neg hname, if_neg hname]

theorem parameters_ascending (pairs : List (String × String)) : Ascending (parameters pairs) :=
  (find?_foldl_update pairs List.Pairwise.nil).1

theorem find?_parameters (pairs : List (String × String)) (name : String) :
    Ordered.find? name (parameters pairs) =
      if valuesOf name (pairs.map lowered) = [] then none
      else some (valuesOf name (pairs.map lowered)) :=
  (find?_foldl_update pairs List.Pairwise.nil).2 name

-- The parameters as they are written.
def sortedParameters (pairs : List (String × String)) : List (String × List String) :=
  (parameters pairs).map fun e => (e.1, sortTexts e.2)

theorem count_valuesOf (pairs : List (String × String)) (name value : String) :
    (valuesOf name pairs).count value = pairs.count (name, value) := by
  induction pairs with
  | nil => rfl
  | cons pair rest ih =>
    obtain ⟨k, v⟩ := pair
    by_cases hname : k = name
    · subst hname
      simp only [valuesOf, List.filter_cons, beq_self_eq_true, if_true, List.map_cons,
        List.count_cons] at ih ⊢
      rw [ih]
      simp
    · have hpair : ((k, v) == (name, value)) = false := by simp [hname]
      simp only [valuesOf, List.filter_cons, beq_false_of_ne hname, Bool.false_eq_true, if_false,
        List.count_cons, hpair] at ih ⊢
      rw [ih, Nat.add_zero]

theorem mem_valuesOf {pairs : List (String × String)} {name value : String} :
    value ∈ valuesOf name pairs ↔ (name, value) ∈ pairs := by
  rw [← List.count_pos_iff, count_valuesOf, List.count_pos_iff]

theorem mem_sortedParameters {pairs : List (String × String)} {e : String × List String}
    (h : e ∈ sortedParameters pairs) :
    e.2 ≠ [] ∧ ∀ value ∈ e.2, ∃ pair ∈ pairs, e.1 = Text.lowercase pair.1 ∧ value = pair.2 := by
  obtain ⟨⟨name, values⟩, hentry, rfl⟩ := List.mem_map.mp h
  have hfind := (Ordered.find?_eq_some_iff (parameters_ascending pairs)).mpr hentry
  rw [find?_parameters] at hfind
  split at hfind
  · exact nomatch hfind
  · rename_i hne
    rw [Option.some.inj hfind] at hne
    have hperm : (sortTexts values).Perm values := List.mergeSort_perm values _
    refine ⟨fun hnil : sortTexts values = [] => ?_, fun value hvalue => ?_⟩
    · rw [hnil] at hperm
      exact hne (List.nil_perm.mp hperm)
    · have hmem : (name, value) ∈ pairs.map lowered := by
        rw [← mem_valuesOf, Option.some.inj hfind]
        exact hperm.mem_iff.mp hvalue
      obtain ⟨pair, hpair, heq⟩ := List.mem_map.mp hmem
      exact ⟨pair, hpair, (congrArg Prod.fst heq).symm, (congrArg Prod.snd heq).symm⟩

end Parameters

section Lines

variable {account : String} {r : Http.Request}

end Lines

-- A request for the web with none of the marks that part names and values in the text to sign.
structure Markless (r : Http.Request) : Prop where
  method : Http.IsToken r.method
  names : ∀ h ∈ r.headers, Http.IsToken h.1
  url : Url.Web r.url
  queryNames : ∀ pair ∈ r.url.queryPairs, '\n' ∉ pair.1.toList ∧ ':' ∉ pair.1.toList
  queryValues : ∀ pair ∈ r.url.queryPairs, '\n' ∉ pair.2.toList ∧ ',' ∉ pair.2.toList

namespace Markless

variable {r : Http.Request}

theorem parameter (h : Markless r) {e : String × List String}
    (he : e ∈ sortedParameters r.url.queryPairs) :
    ('\n' ∉ e.1.toList ∧ ':' ∉ e.1.toList) ∧
      ∀ value ∈ e.2, '\n' ∉ value.toList ∧ ',' ∉ value.toList := by
  obtain ⟨hne, hmem⟩ := mem_sortedParameters he
  constructor
  · obtain ⟨value, hvalue⟩ := List.exists_mem_of_ne_nil _ hne
    obtain ⟨pair, hpair, hname, -⟩ := hmem value hvalue
    rw [hname]
    exact (h.queryNames pair hpair).imp (mt fun hc => Text.mem_of_mem_lowercase hc (by decide))
      (mt fun hc => Text.mem_of_mem_lowercase hc (by decide))
  · intro value hvalue
    obtain ⟨pair, hpair, -, rfl⟩ := hmem value hvalue
    exact h.queryValues pair hpair

end Markless

variable {account : String} {r r' : Http.Request}

-- Two ways to write one request.
def listing : Http.Request where
  method := "GET"
  url :=
    { scheme := "http", authority := some ⟨"", "", .name "blobs", none⟩, path := .segments ["logs"]
      query := some "comp=list&prefix=%61", fragment := none }
  headers := [("x-ms-version", "2021-08-06"), ("host", "blobs"), ("x-ms-date", " today ")]
  body := none

end SharedKey

end BlobStorage
