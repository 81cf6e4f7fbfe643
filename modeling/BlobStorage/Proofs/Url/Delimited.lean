import BlobStorage.Proofs.Url.Reading

-- Whoever reads the text of a URL finds its query between the first question mark and a number sign.
-- This holds of every URL that was read, under any scheme, and of what is made of it.
namespace BlobStorage.Url

open BlobStorage.Url.Parser (endsPath endsAuthority)

-- Texts without a mark that ends a path.
def Unmarked (s : String) : Prop := ∀ c ∈ s.toList, endsPath c = false

instance (s : String) : Decidable (Unmarked s) :=
  List.decidableBAll (endsPath · = false) s.toList

section Unmarked

theorem unmarked_empty : Unmarked "" := fun _ h => absurd h List.not_mem_nil

theorem Unmarked.append {s t : String} (hs : Unmarked s) (ht : Unmarked t) : Unmarked (s ++ t) := by
  intro c hc
  rw [String.toList_append, List.mem_append] at hc
  exact hc.elim (hs c) (ht c)

theorem unmarked_ofList {cs : List Char} (h : ∀ c ∈ cs, endsPath c = false) :
    Unmarked (String.ofList cs) := by
  intro c hc
  rw [String.toList_ofList] at hc
  exact h c hc

theorem endsPath_of_endsAuthority {c : Char} (h : endsAuthority true c = false) :
    endsPath c = false := by
  simp only [endsAuthority, Bool.or_eq_false_iff] at h
  simp only [endsPath, h, Bool.or_self]

-- Characters with a property that neither mark has.
theorem not_endsPath {p : Char → Prop} {c : Char} (h : p c) (hquestion : ¬p '?')
    (hsign : ¬p '#') : endsPath c = false := by
  simp only [endsPath, Bool.or_eq_false_iff, beq_eq_false_iff_ne]
  constructor
  · rintro rfl
    exact hquestion h
  · rintro rfl
    exact hsign h

theorem unmarked_repr (n : Nat) : Unmarked (Nat.repr n) := by
  intro c hc
  rw [Nat.toList_repr] at hc
  exact not_endsPath (p := (Text.isDigit · = true)) (Text.isDigit_of_mem_toDigits hc) (by decide)
    (by decide)

theorem unmarked_segments {parts : List String} :
    Unmarked (Path.segments parts).text ↔ ∀ part ∈ parts, Unmarked part := by
  induction parts with
  | nil => exact ⟨fun _ _ h => absurd h List.not_mem_nil, fun _ => unmarked_empty⟩
  | cons part parts ih =>
    have htext : (Path.segments (part :: parts)).text = "/" ++ part ++ (Path.segments parts).text := by
      rw [← List.singleton_append, Path.text_append, Path.text_singleton]
    rw [htext, List.forall_mem_cons, ← ih]
    constructor
    · intro h
      refine ⟨fun c hc => h c ?_, fun c hc => h c ?_⟩
      · simp only [String.toList_append, List.mem_append, hc, or_true, true_or]
      · simp only [String.toList_append, List.mem_append, hc, or_true]
    · rintro ⟨hpart, hparts⟩
      exact (Unmarked.append (by decide) hpart).append hparts

end Unmarked

structure Authority.Delimited (a : Authority) : Prop where
  username : Unmarked a.username
  password : Unmarked a.password
  host : Unmarked a.host.text

-- A URL whose marks all stand where they separate its parts.
structure Delimited (url : Url) : Prop where
  scheme : Unmarked url.scheme
  authority : ∀ a, url.authority = some a → a.Delimited
  path : Unmarked url.path.text
  query : '#' ∉ (url.query.getD "").toList

-- The query of a URL's text.
def queryOf? (text : String) : Option String :=
  (queryIn? (text.toList.dropWhile (!endsPath ·))).map String.ofList

-- The value of the last parameter of a name in the query of a URL's text.
def parameter? (name text : String) : Option String :=
  ((queryOf? text).elim [] Query.decode).reverse.lookup name

namespace Delimited

variable {url : Url} (h : url.Delimited)
include h

theorem authorityText : Unmarked url.authorityText := by
  unfold Url.authorityText
  split
  · rename_i a ha
    have ha := h.authority a ha
    have huser : Unmarked a.userinfoText := by
      unfold Authority.userinfoText
      split
      · exact unmarked_empty
      · refine (ha.username.append ?_).append (by decide)
        split
        · exact unmarked_empty
        · exact Unmarked.append (by decide) ha.password
    have hhost : Unmarked a.hostText := by
      unfold Authority.hostText
      refine ha.host.append ?_
      split
      · exact Unmarked.append (by decide) (unmarked_repr _)
      · exact unmarked_empty
    exact (Unmarked.append (by decide) huser).append hhost
  · exact unmarked_empty

theorem front :
    Unmarked (url.scheme ++ ":" ++ url.authorityText ++ url.pathGuard ++ url.path.text) := by
  have hguard : Unmarked url.pathGuard := by
    unfold pathGuard
    split
    · decide
    · exact unmarked_empty
  exact (((h.scheme.append (by decide)).append (authorityText h)).append
    hguard).append h.path

theorem queryOf?_text : queryOf? url.text = url.query := by
  rw [queryOf?, Url.text, String.toList_append, String.toList_append, List.append_assoc, ← behindPath,
    dropWhile_path url (front h), queryIn?_behindPath url h.query, Option.map_map]
  cases url.query with
  | none => rfl
  | some query => rw [Option.map_some, Function.comp_apply, String.ofList_toList]

theorem appendQuery (pairs : List (String × String)) : (url.appendQuery pairs).Delimited := by
  refine ⟨h.scheme, h.authority, h.path, ?_⟩
  rw [Url.appendQuery, Option.getD_some, String.toList_ofList]
  intro hc
  have hkept : ∀ c ∈ (url.query.getD "").toList, c ≠ '#' := by
    rintro c hc rfl
    exact h.query hc
  refine Query.forall_mem_appendPairs (p := (· ≠ '#')) (by decide) ?_ hkept pairs hc rfl
  intro c hc
  obtain ⟨-, hmark, -⟩ := Query.isWritten_visible true hc
  exact hmark

-- What was put behind a query last is what is read of it.
theorem parameter?_appendQuery (pairs : List (String × String)) (pair : String × String) :
    parameter? pair.1 (url.appendQuery (pairs ++ [pair])).text = some pair.2 := by
  have hquery : queryOf? (url.appendQuery (pairs ++ [pair])).text =
      (url.appendQuery (pairs ++ [pair])).query := queryOf?_text (appendQuery h _)
  have hpairs := queryPairs_appendQuery url (pairs ++ [pair])
  rw [queryPairs] at hpairs
  rw [parameter?, hquery]
  simp only [Url.appendQuery, Option.elim_some] at hpairs ⊢
  rw [hpairs, ← List.append_assoc, List.reverse_append, List.reverse_singleton, List.singleton_append,
    List.lookup_cons_self]

theorem extend? {change : List String → List String}
    (hchange : ∀ parts, (change parts).Sublist parts) {added : List String} {more : Url}
    (hmore : url.extend? change added = some more) : more.Delimited := by
  obtain ⟨parts, hparts, rfl⟩ := extend?_parts hmore
  refine ⟨h.scheme, h.authority, unmarked_segments.mpr fun part hpart => ?_, h.query⟩
  have hkept : ∀ part ∈ parts, Unmarked part := by
    have hpath := h.path
    rw [hparts] at hpath
    exact unmarked_segments.mp hpath
  obtain ⟨kept, written, hcut, hwritten, hfold⟩ :=
    Path.foldl_push_written url.special (change parts) added
  rw [hfold, List.mem_append] at hpart
  rcases hpart with hpart | hpart
  · exact hkept part ((hchange parts).subset (hcut.subset hpart))
  · obtain ⟨segment, -, rfl⟩ := hwritten part hpart
    exact fun c hc => (mem_escaped _ _ c hc).2

end Delimited

theorem Path.popEmpty_sublist (parts : List String) : (Path.popEmpty parts).Sublist parts := by
  unfold Path.popEmpty
  split
  · exact List.dropLast_sublist parts
  · exact List.Sublist.refl parts

section Parsed

open BlobStorage.Url.Parser

theorem endsPath_lower {c : Char} (hc : isSchemeChar c = true) :
    endsPath (if 65 ≤ c.toNat ∧ c.toNat ≤ 90 then Char.ofNat (c.toNat + 32) else c) = false := by
  split
  · rename_i hbounds
    have hcapital : ∀ n < 26, endsPath (Char.ofNat (65 + n + 32)) = false := by decide
    have hn := hcapital (c.toNat - 65) (by omega)
    rwa [show 65 + (c.toNat - 65) = c.toNat by omega] at hn
  · exact not_endsPath (p := (isSchemeChar · = true)) hc (by decide) (by decide)

theorem scheme_unmarked {cs rest : List Char} {scheme : String}
    (h : scheme? cs = some (scheme, rest)) : Unmarked scheme := by
  unfold scheme? at h
  split at h
  · split at h
    · simp only [Option.some.injEq, Prod.mk.injEq] at h
      rw [← h.1]
      unfold Text.asciiLower
      rw [String.toList_ofList]
      refine unmarked_ofList fun c hc => ?_
      obtain ⟨d, hd, rfl⟩ := List.mem_map.mp hc
      exact endsPath_lower (List.mem_takeWhile_imp hd)
    · exact nomatch h
  · exact nomatch h

theorem otherHost_unmarked {cs : List Char} {host : Host} (h : otherHost cs = .ok host) :
    Unmarked host.text := by
  unfold otherHost at h
  split at h
  · rename_i hbracket
    have hspecial : specialHost cs = .ok host := by
      unfold specialHost
      rw [if_neg, if_pos hbracket, h]
      rintro rfl
      exact nomatch hbracket
    exact fun c hc => endsPath_of_endsAuthority ((specialHost_readable hspecial).plain c hc).2.2
  · split at h
    · exact nomatch h
    · rename_i hforbidden
      cases h
      refine unmarked_ofList fun c hc => Percent.forall_mem_encode
        (p := (endsPath · = false)) (by decide) (fun d hd _ => ?_) hc
      rw [List.any_eq_true, not_exists] at hforbidden
      have hplain : ¬(d.toNat == 0 || " #/:<>?@[\\]^|".toList.contains d) = true :=
        fun hbad => hforbidden d ⟨hd, hbad⟩
      exact not_endsPath
        (p := fun d => ¬(d.toNat == 0 || " #/:<>?@[\\]^|".toList.contains d) = true) hplain
        (by decide) (by decide)

theorem authority_delimited {scheme : String} {cs behind left : List Char} {a : Authority}
    (h : Parser.authority scheme cs behind = .ok (a, left)) : a.Delimited := by
  obtain ⟨userinfo, host, huser, hhost, -⟩ := eq_of_authority h
  simp only [credentials, Prod.mk.injEq] at huser
  refine ⟨?_, ?_, ?_⟩
  · rw [huser.1]
    exact unmarked_ofList fun c hc => endsPath_of_endsAuthority (mem_encode_inUserinfo _ c hc).2
  · rw [huser.2]
    exact unmarked_ofList fun c hc => endsPath_of_endsAuthority (mem_encode_inUserinfo _ c hc).2
  · split at hhost
    · exact fun c hc => endsPath_of_endsAuthority ((specialHost_readable hhost).plain c hc).2.2
    · exact otherHost_unmarked hhost

theorem query_unmarked (special : Bool) (cs : List Char) :
    '#' ∉ ((queryAndFragment special cs).1.getD "").toList := by
  intro hc
  obtain ⟨-, hmark, -⟩ := mem_query special cs _ hc
  exact hmark rfl

theorem segments_unmarked {parts : List String} (h : Path.Readable parts) :
    Unmarked (Path.segments parts).text :=
  unmarked_segments.mpr fun part hpart c hc => (h part hpart c hc).2

theorem withAuthority_delimited {scheme : String} {cs : List Char} {url : Url}
    (hscheme : Unmarked scheme) (h : withAuthority scheme cs = .ok url) : url.Delimited := by
  obtain ⟨a, left, written, behind, path, rest, ha, rfl⟩ := withAuthority_inv h
  refine ⟨hscheme, fun b hb => ?_, segments_unmarked (segments_readable _ _), query_unmarked _ _⟩
  cases hb
  exact authority_delimited ha

theorem withoutAuthority_delimited {scheme : String} (hscheme : Unmarked scheme)
    (cs : List Char) : (withoutAuthority scheme cs).Delimited := by
  refine ⟨hscheme, nofun, ?_, query_unmarked _ _⟩
  simp only [withoutAuthority]
  split
  · exact segments_unmarked (ofParts_readable Path.readable_nil _)
  · refine unmarked_ofList fun c hc => Percent.forall_mem_encode
      (p := (endsPath · = false)) (by decide) (fun d hd _ => ?_) hc
    simpa using List.mem_takeWhile_imp hd

theorem mem_withoutLeadingEmpty {segments : List String} {part : String}
    (h : part ∈ withoutLeadingEmpty segments) : part ∈ segments := by
  induction segments using withoutLeadingEmpty.induct with
  | case1 second rest ih =>
    rw [withoutLeadingEmpty] at h
    exact List.mem_cons_of_mem _ (ih h)
  | case2 segments hsegments =>
    rwa [withoutLeadingEmpty.eq_2 _ hsegments] at h

theorem fileHost_unmarked {cs : List Char} {host : Host} (h : fileHost cs = .ok host) :
    Unmarked host.text := by
  unfold fileHost at h
  split at h
  · cases h
    exact unmarked_empty
  · cases hhost : specialHost cs with
    | error problem =>
      rw [hhost] at h
      exact nomatch h
    | ok found =>
      rw [hhost] at h
      cases h
      split
      · exact unmarked_empty
      · exact fun c hc => endsPath_of_endsAuthority ((specialHost_readable hhost).plain c hc).2.2

theorem file_delimited {cs : List Char} {url : Url} (h : file cs = .ok url) : url.Delimited := by
  obtain ⟨host, hostText, path, rest, hhost, rfl⟩ := file_inv h
  refine ⟨(by decide : Unmarked "file"), fun a ha => ?_, ?_, query_unmarked _ _⟩
  · cases ha
    exact ⟨unmarked_empty, unmarked_empty, fileHost_unmarked hhost⟩
  · refine segments_unmarked fun part hpart => ?_
    exact segments_readable true _ part (mem_withoutLeadingEmpty hpart)

theorem delimited_of_parse {s : String} {url : Url} (h : parse s = .ok url) : url.Delimited := by
  obtain ⟨scheme, rest, hread, hways⟩ := parse_cases h
  have hscheme := scheme_unmarked hread
  rcases hways with ⟨-, hfile⟩ | ⟨-, cs, hcs⟩ | ⟨-, -, cs, hcs⟩ | ⟨-, rfl⟩
  · exact file_delimited hfile
  · exact withAuthority_delimited hscheme hcs
  · exact withAuthority_delimited hscheme hcs
  · exact withoutAuthority_delimited hscheme rest

end Parsed

end BlobStorage.Url
