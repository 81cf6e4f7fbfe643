import BlobStorage.Proofs.Url.Host
import BlobStorage.Proofs.Url.Path
import BlobStorage.Proofs.Url.Query
import Mathlib.Data.List.TakeWhile

-- The text of a web address that was read, extended and given a query reads again, with that query.
namespace BlobStorage.Url

namespace Parser

-- Where nothing has to go at the ends, only what is dropped anywhere goes.
theorem clean_eq_filter {s : String} (hfirst : ∀ c ∈ s.toList.head?, 0x20 < c.toNat)
    (hlast : ∀ c ∈ s.toList.getLast?, 0x20 < c.toNat) :
    clean s = s.toList.filter (!Path.isDropped ·) := by
  have hfront : s.toList.dropWhile (fun c => decide (c.toNat ≤ 0x20)) = s.toList := by
    rw [Text.dropWhile_eq_self_iff]
    intro c hc
    simpa using hfirst c hc
  have hback : Text.dropRightWhile (fun c => decide (c.toNat ≤ 0x20)) s.toList = s.toList := by
    apply Text.dropRightWhile_eq_self
    intro c hc
    simpa using hlast c hc
  simp only [clean, hfront, hback]

theorem clean_of_visible {s : String} (h : ∀ c ∈ s.toList, 0x20 < c.toNat) : clean s = s.toList := by
  rw [clean_eq_filter (fun c hc => h c (List.mem_of_head? hc))
    (fun c hc => h c (List.mem_of_getLast? hc)), List.filter_eq_self]
  intro c hc
  have hvisible := h c hc
  simp only [Path.isDropped, Bool.not_eq_true', Bool.or_eq_false_iff, beq_eq_false_iff_ne]
  refine ⟨⟨?_, ?_⟩, ?_⟩ <;> rintro rfl <;> exact absurd hvisible (by decide)

theorem scheme?_append {scheme : String} {cs : List Char}
    (hfirst : (scheme.toList.head?.any Char.isAlpha) = true)
    (hall : scheme.toList.all isSchemeChar = true) (hlower : Text.asciiLower scheme = scheme) :
    scheme? (scheme.toList ++ ':' :: cs) = some (scheme, cs) := by
  have hchars := List.all_eq_true.mp hall
  have hcolon : ∀ c ∈ (':' :: cs).head?, isSchemeChar c = false := by
    rintro c ⟨⟩
    decide
  have htake := Text.takeWhile_boundary hchars hcolon
  have hdrop := Text.dropWhile_boundary hchars hcolon
  cases hscheme : scheme.toList with
  | nil =>
    rw [hscheme] at hfirst
    exact nomatch hfirst
  | cons first more =>
    rw [hscheme] at hfirst htake hdrop
    have halpha : first.isAlpha = true := by simpa using hfirst
    rw [List.cons_append] at htake hdrop ⊢
    simp only [scheme?, hdrop, htake, halpha, if_true]
    rw [← hscheme, String.ofList_toList, hlower]

-- The last at sign ends the user information.
theorem splitUserinfo_append {front host : List Char} (h : '@' ∉ host) :
    (splitUserinfo (front ++ '@' :: host)).2 = host := by
  have hcontains : (front ++ '@' :: host).contains '@' = true := by simp
  have hhost : ∀ c ∈ host.reverse, decide (c ≠ '@') = true := by
    intro c hc
    simpa using fun heq : c = '@' => h (heq ▸ List.mem_reverse.mp hc)
  simp only [splitUserinfo, hcontains, if_true]
  rw [List.reverse_append, List.reverse_cons, List.append_assoc,
    Text.takeWhile_boundary hhost (by simp), List.reverse_reverse]

theorem splitUserinfo_host {host : List Char} (h : '@' ∉ host) : (splitUserinfo host).2 = host := by
  have hcontains : host.contains '@' = false := by simpa using h
  simp only [splitUserinfo, hcontains, Bool.false_eq_true, if_false]

theorem port?_toDigits (scheme : String) {n : Nat} (h : n ≤ 65535) :
    ∃ port, port? scheme (Nat.toDigits 10 n) = .ok (port, []) := by
  have hdigits : ∀ c ∈ Nat.toDigits 10 n, Text.isDigit c = true := fun c hc =>
    Text.isDigit_of_mem_toDigits hc
  have htake : (Nat.toDigits 10 n).takeWhile Text.isDigit = Nat.toDigits 10 n :=
    List.takeWhile_eq_self_iff.mpr hdigits
  have hdrop : (Nat.toDigits 10 n).dropWhile Text.isDigit = [] :=
    List.dropWhile_eq_nil_iff.mpr hdigits
  have hfits : ¬(65535 < n ∨ ([] : List Char) ≠ [] ∧ [].head? ≠ some '\\') := by
    rintro (hlarge | ⟨hne, -⟩)
    · omega
    · exact hne rfl
  simp only [port?, htake, hdrop, Text.digitsValue_toDigits, if_neg hfits]
  exact ⟨_, rfl⟩

theorem authority_ok {scheme : String} {cs behind host port : List Char} {found : Host}
    (hspecial : isSpecial scheme = true)
    (hsplit : splitHost false (splitUserinfo cs).2 = (host, port))
    (hfound : specialHost host = .ok found)
    (hport : port = [] ∨ ∃ n ≤ 65535, port = ':' :: Nat.toDigits 10 n) :
    ∃ a, authority scheme cs behind = .ok (a, []) := by
  have hhost : host.isEmpty = false := by
    cases host with
    | nil => exact nomatch hfound
    | cons c host => rfl
  rcases hport with rfl | ⟨n, hn, rfl⟩
  · simp only [authority, hsplit, hhost, hspecial, hfound, Bool.false_and]
    exact ⟨_, rfl⟩
  · obtain ⟨number, hnumber⟩ := port?_toDigits scheme hn
    simp only [authority, hsplit, hhost, hspecial, hfound, Bool.false_and, List.drop_succ_cons,
      List.drop_zero, hnumber]
    exact ⟨_, rfl⟩

theorem withAuthority_ok {scheme : String} {cs behind : List Char} {a : Authority}
    (hspecial : isSpecial scheme = true) (hcs : ∀ c ∈ cs, endsAuthority true c = false)
    (hbehind : ∀ c ∈ behind.head?, endsAuthority true c = true)
    (ha : authority scheme cs behind = .ok (a, [])) :
    ∃ url, withAuthority scheme (cs ++ behind) = .ok url ∧
      url.query = (queryAndFragment true (behind.dropWhile (!endsPath ·))).1 := by
  have hplain : ∀ c ∈ cs, (!endsAuthority true c) = true := by simpa using hcs
  have hends : ∀ c ∈ behind.head?, (!endsAuthority true c) = false := by simpa using hbehind
  have htake := Text.takeWhile_boundary hplain hends
  have hdrop := Text.dropWhile_boundary hplain hends
  simp only [withAuthority, hspecial, htake, hdrop, ha]
  exact ⟨_, rfl, rfl⟩

-- What is left to read of an authority once its host has been found.
theorem eq_of_host {scheme : String} {found : Except Problem Host} {user : String × String}
    {portText left : List Char} {a : Authority}
    (h : (do
      let host ← found
      let (port, left) ← if portText = [] then .ok (none, []) else port? scheme (portText.drop 1)
      Except.ok ((⟨user.1, user.2, host, port⟩ : Authority), left)) = .ok (a, left)) :
    (a.username, a.password) = user ∧ found = .ok a.host ∧
      (a.port = none ∨ ∃ port, port? scheme port = .ok (a.port, left)) := by
  cases found with
  | error problem => exact nomatch h
  | ok host =>
    by_cases hnone : portText = []
    · simp only [if_pos hnone] at h
      cases h
      exact ⟨rfl, rfl, .inl rfl⟩
    · simp only [if_neg hnone] at h
      cases hport : port? scheme (portText.drop 1) with
      | error problem =>
        rw [hport] at h
        exact nomatch h
      | ok found =>
        rw [hport] at h
        cases h
        exact ⟨rfl, rfl, .inr ⟨_, hport⟩⟩

-- What an authority was read from.
theorem eq_of_authority {scheme : String} {cs behind left : List Char} {a : Authority}
    (h : authority scheme cs behind = .ok (a, left)) :
    ∃ userinfo host, (a.username, a.password) = credentials userinfo ∧
      (if isSpecial scheme then specialHost host else otherHost host) = .ok a.host ∧
      (a.port = none ∨ ∃ port, port? scheme port = .ok (a.port, left)) := by
  simp only [authority] at h
  split at h
  · exact nomatch h
  refine ⟨(splitUserinfo cs).1.getD [], (splitHost false (splitUserinfo cs).2).1, ?_⟩
  split at h
  · rename_i hspecial
    rw [if_pos hspecial]
    exact eq_of_host h
  · rename_i hspecial
    rw [if_neg hspecial]
    exact eq_of_host h

theorem port?_le {scheme : String} {cs left : List Char} {n : Nat}
    (h : port? scheme cs = .ok (some n, left)) : n ≤ 65535 := by
  simp only [port?] at h
  split at h
  · exact nomatch h
  · rename_i hfits
    simp only [Except.ok.injEq, Prod.mk.injEq, Option.ite_none_left_eq_some, Option.some.injEq] at h
    omega

theorem withAuthority_inv {scheme : String} {cs : List Char} {url : Url}
    (h : withAuthority scheme cs = .ok url) :
    ∃ a left written behind path rest, authority scheme written behind = .ok (a, left) ∧
      url = ⟨scheme, some a, .segments (segments (isSpecial scheme) path),
        (queryAndFragment (isSpecial scheme) rest).1, (queryAndFragment (isSpecial scheme) rest).2⟩ := by
  simp only [withAuthority] at h
  cases ha : authority scheme (cs.takeWhile (!endsAuthority (isSpecial scheme) ·))
      (cs.dropWhile (!endsAuthority (isSpecial scheme) ·)) with
  | error problem =>
    rw [ha] at h
    exact nomatch h
  | ok found =>
    rw [ha] at h
    cases h
    exact ⟨_, _, _, _, _, _, ha, rfl⟩

theorem file_inv {cs : List Char} {url : Url} (h : file cs = .ok url) :
    ∃ host hostText path rest, fileHost hostText = .ok host ∧
      url = ⟨"file", some ⟨"", "", host, none⟩, .segments (withoutLeadingEmpty (segments true path)),
        (queryAndFragment true rest).1, (queryAndFragment true rest).2⟩ := by
  unfold file at h
  dsimp only at h
  generalize (if 2 ≤ (cs.takeWhile (isSlash true)).length then _ else _) = halves at h
  cases hhost : fileHost halves.1 with
  | error problem =>
    rw [hhost] at h
    exact nomatch h
  | ok host =>
    rw [hhost] at h
    cases h
    exact ⟨_, _, _, _, hhost, rfl⟩

-- The ways in which an address is read.
theorem parse_cases {s : String} {url : Url} (h : parse s = .ok url) :
    ∃ scheme rest, scheme? (clean s) = some (scheme, rest) ∧
      (scheme = "file" ∧ file rest = .ok url ∨
        isSpecial scheme = true ∧ (∃ cs, withAuthority scheme cs = .ok url) ∨
        isSpecial scheme = false ∧ rest.head? = some '/' ∧
          (∃ cs, withAuthority scheme cs = .ok url) ∨
        isSpecial scheme = false ∧ url = withoutAuthority scheme rest) := by
  unfold parse at h
  split at h
  · exact nomatch h
  rename_i scheme rest hread
  refine ⟨scheme, rest, hread, ?_⟩
  split at h
  · rename_i hfile
    exact .inl ⟨hfile, h⟩
  split at h
  · rename_i hspecial
    exact .inr (.inl ⟨hspecial, _, h⟩)
  rename_i hspecial
  have hspecial := Bool.eq_false_iff.mpr hspecial
  split at h
  · exact .inr (.inr (.inl ⟨hspecial, rfl, _, h⟩))
  · exact .inr (.inr (.inr ⟨hspecial, (Except.ok.inj h).symm⟩))

end Parser

open BlobStorage.Url.Parser (endsAuthority endsPath)

-- An authority that reads back.
structure Authority.Readable (a : Authority) : Prop where
  username : ∀ c ∈ a.username.toList, 0x20 < c.toNat ∧ endsAuthority true c = false
  password : ∀ c ∈ a.password.toList, 0x20 < c.toNat ∧ endsAuthority true c = false
  host : Parser.Readable a.host
  port : ∀ n, a.port = some n → n ≤ 65535

namespace Authority

variable {a : Authority}

def text (a : Authority) : String := a.userinfoText ++ a.hostText

theorem portText_cases (h : a.Readable) : ∃ port : List Char,
    a.hostText.toList = a.host.text.toList ++ port ∧
      (port = [] ∨ ∃ n ≤ 65535, port = ':' :: Nat.toDigits 10 n) := by
  cases hport : a.port with
  | none =>
    refine ⟨[], ?_, .inl rfl⟩
    simp only [hostText, hport, String.append_empty, List.append_nil]
  | some n =>
    refine ⟨':' :: Nat.toDigits 10 n, ?_, .inr ⟨n, h.port n hport, rfl⟩⟩
    simp only [hostText, hport, String.toList_append, Nat.toList_repr]
    rfl

theorem portText_plain {port : List Char}
    (h : port = [] ∨ ∃ n ≤ 65535, port = ':' :: Nat.toDigits 10 n) :
    ∀ c ∈ port, 0x20 < c.toNat ∧ c ≠ '@' ∧ endsAuthority true c = false := by
  have hdigit : ∀ c : Char, c.toNat < 128 → Text.isDigit c = true →
      0x20 < c.toNat ∧ c ≠ '@' ∧ endsAuthority true c = false := Text.forall_ascii (by decide)
  rcases h with rfl | ⟨n, -, rfl⟩
  · exact fun c hc => absurd hc List.not_mem_nil
  · intro c hc
    rcases List.mem_cons.mp hc with rfl | hc
    · decide
    · have hc := Text.isDigit_of_mem_toDigits hc
      refine hdigit c ?_ hc
      simp only [Text.isDigit, Bool.and_eq_true, decide_eq_true_eq] at hc
      omega

theorem hostText_plain (h : a.Readable) {c : Char} (hc : c ∈ a.hostText.toList) :
    0x20 < c.toNat ∧ c ≠ '@' ∧ endsAuthority true c = false := by
  obtain ⟨port, htext, hport⟩ := portText_cases h
  rw [htext, List.mem_append] at hc
  exact hc.elim (h.host.plain c) (portText_plain hport c)

theorem text_plain (h : a.Readable) {c : Char} (hc : c ∈ a.text.toList) :
    0x20 < c.toNat ∧ endsAuthority true c = false := by
  rw [text, String.toList_append, List.mem_append] at hc
  rcases hc with hc | hc
  · unfold userinfoText at hc
    split at hc
    · exact absurd hc List.not_mem_nil
    · simp only [String.toList_append, List.mem_append] at hc
      rcases hc with (hc | hc) | hc
      · exact h.username c hc
      · split at hc
        · exact absurd hc List.not_mem_nil
        · rw [String.toList_append, List.mem_append] at hc
          rcases hc with hc | hc
          · rw [List.mem_singleton.mp hc]
            decide
          · exact h.password c hc
      · rw [List.mem_singleton.mp hc]
        decide
  · obtain ⟨hvisible, -, hends⟩ := hostText_plain h hc
    exact ⟨hvisible, hends⟩

theorem splitUserinfo_text (h : a.Readable) :
    (Parser.splitUserinfo a.text.toList).2 = a.hostText.toList := by
  have hat : '@' ∉ a.hostText.toList := fun hc => (hostText_plain h hc).2.1 rfl
  rw [text, String.toList_append, userinfoText]
  split
  · exact Parser.splitUserinfo_host hat
  · rw [String.toList_append, List.append_assoc]
    exact Parser.splitUserinfo_append hat

theorem authority_text (h : a.Readable) {scheme : String} (hspecial : isSpecial scheme = true)
    (behind : List Char) :
    ∃ again, Parser.authority scheme a.text.toList behind = .ok (again, []) := by
  obtain ⟨port, htext, hport⟩ := portText_cases h
  obtain ⟨found, hfound⟩ := h.host.reads
  have hcolon : port = [] ∨ port.head? = some ':' := by
    rcases hport with rfl | ⟨n, -, rfl⟩
    · exact .inl rfl
    · exact .inr rfl
  refine Parser.authority_ok hspecial ?_ hfound hport
  rw [splitUserinfo_text h, htext, h.host.splits port hcolon]

theorem slashes_text (h : a.Readable) (cs : List Char) :
    ('/' :: '/' :: (a.text.toList ++ cs)).dropWhile (Parser.isSlash true) = a.text.toList ++ cs := by
  have hslash : Parser.isSlash true '/' = true := by decide
  have hne : a.text.toList ≠ [] := by
    intro hnil
    obtain ⟨port, htext, -⟩ := portText_cases h
    obtain ⟨found, hfound⟩ := h.host.reads
    rw [text, String.toList_append, htext, List.append_eq_nil_iff, List.append_eq_nil_iff] at hnil
    rw [hnil.2.1] at hfound
    exact nomatch hfound
  obtain ⟨c, more, hcons⟩ := List.exists_cons_of_ne_nil hne
  have hends := (text_plain h (c := c) (by rw [hcons]; exact List.mem_cons_self)).2
  have hc : Parser.isSlash true c = false := by
    simp only [endsAuthority, Bool.or_eq_false_iff] at hends
    simp only [Parser.isSlash, hends, Bool.or_self]
  rw [hcons, List.cons_append, List.dropWhile_cons, if_pos hslash, List.dropWhile_cons,
    if_pos hslash, List.dropWhile_cons, if_neg (by rw [hc]; decide)]

end Authority

section Behind

-- The query in what follows a path: behind a question mark, up to a number sign.
def queryIn? : List Char → Option (List Char)
  | '?' :: rest => some (rest.takeWhile (· ≠ '#'))
  | _ => none

theorem Parser.query_eq (special : Bool) (cs : List Char) :
    (queryAndFragment special cs).1 = (queryIn? cs).map fun query =>
      String.ofList (Percent.encode (Percent.inQuery special) query) := by
  simp only [queryAndFragment]
  split
  · rfl
  · rename_i hother
    rw [queryIn?.eq_2 _ hother]
    rfl

-- What follows the path.
def behindPath (url : Url) : List Char := url.queryText.toList ++ url.fragmentText.toList

variable (url : Url)

theorem fragmentText_cases :
    url.fragmentText.toList = [] ∨ ∃ cs, url.fragmentText.toList = '#' :: cs := by
  unfold fragmentText
  split
  · rename_i fragment _
    exact .inr ⟨fragment.toList, by rw [String.toList_append]; rfl⟩
  · exact .inl rfl

theorem behindPath_cases : url.query = none ∧ behindPath url = url.fragmentText.toList ∨
    ∃ query, url.query = some query ∧
      behindPath url = '?' :: (query.toList ++ url.fragmentText.toList) := by
  unfold behindPath queryText
  cases url.query with
  | none => exact .inl ⟨rfl, rfl⟩
  | some query =>
    refine .inr ⟨query, rfl, ?_⟩
    rw [String.toList_append]
    rfl

theorem behindPath_head : ∀ c ∈ (behindPath url).head?, endsPath c = true := by
  rcases behindPath_cases url with ⟨-, hbehind⟩ | ⟨query, -, hbehind⟩ <;> rw [hbehind]
  · rcases fragmentText_cases url with hfragment | ⟨cs, hfragment⟩ <;> rw [hfragment]
    · exact nofun
    · rintro c ⟨⟩
      decide
  · rintro c ⟨⟩
    decide

theorem dropWhile_path {front : List Char} (h : ∀ c ∈ front, endsPath c = false) :
    (front ++ behindPath url).dropWhile (!endsPath ·) = behindPath url :=
  Text.dropWhile_boundary (fun c hc => by rw [h c hc]; rfl)
    (fun c hc => by rw [behindPath_head url c hc]; rfl)

theorem queryIn?_behindPath (h : '#' ∉ (url.query.getD "").toList) :
    queryIn? (behindPath url) = url.query.map String.toList := by
  rcases behindPath_cases url with ⟨hquery, hbehind⟩ | ⟨query, hquery, hbehind⟩ <;>
    rw [hquery, hbehind]
  · rcases fragmentText_cases url with hfragment | ⟨cs, hfragment⟩ <;> rw [hfragment] <;> rfl
  · rw [hquery] at h
    have hplain : ∀ c ∈ query.toList, decide (c ≠ '#') = true := by
      intro c hc
      simpa using fun heq : c = '#' => h (heq ▸ hc)
    refine congrArg some (Text.takeWhile_boundary hplain ?_)
    rcases fragmentText_cases url with hfragment | ⟨cs, hfragment⟩ <;> rw [hfragment]
    · exact nofun
    · rintro c ⟨⟩
      decide

end Behind

-- The segments of a path that stay in place when they are read again.
def Path.Readable (segments : List String) : Prop :=
  ∀ part ∈ segments, ∀ c ∈ part.toList, 0x20 < c.toNat ∧ endsPath c = false

-- A web address that reads back.
structure Readable (url : Url) : Prop where
  scheme : url.scheme = "http" ∨ url.scheme = "https"
  authority : ∃ a, url.authority = some a ∧ a.Readable
  path : ∃ parts, url.path = .segments parts ∧ Path.Readable parts
  query : ∀ c ∈ (url.query.getD "").toList,
    0x20 < c.toNat ∧ c ≠ '#' ∧ Percent.inQuery true c = false
  fragment : ∀ c ∈ (url.fragment.getD "").toList, 0x20 < c.toNat

namespace Readable

variable {url : Url} (h : url.Readable)
include h

def rest (url : Url) : List Char :=
  url.path.text.toList ++ url.queryText.toList ++ url.fragmentText.toList

theorem special : isSpecial url.scheme = true := by
  rcases h.scheme with hscheme | hscheme <;> rw [hscheme] <;> decide

theorem path_plain {c : Char} (hc : c ∈ url.path.text.toList) :
    0x20 < c.toNat ∧ endsPath c = false := by
  obtain ⟨parts, hparts, hplain⟩ := h.path
  rw [hparts] at hc
  by_cases hne : parts = []
  · subst hne
    exact absurd hc List.not_mem_nil
  · rw [Path.text_eq_intercalate hne, String.toList_append, String.toList_intercalate,
      List.mem_append] at hc
    rcases hc with hc | hc
    · rw [List.mem_singleton.mp hc]
      decide
    · rcases Text.mem_intercalate hc with hc | ⟨cs, hcs, hc⟩
      · rw [List.mem_singleton.mp hc]
        decide
      · obtain ⟨part, hpart, rfl⟩ := List.mem_map.mp hcs
        exact hplain part hpart c hc

theorem text_eq {a : Authority} (ha : url.authority = some a) :
    url.text.toList = url.scheme.toList ++ ':' :: '/' :: '/' :: (a.text.toList ++ rest url) := by
  obtain ⟨parts, hparts, -⟩ := h.path
  have hguard : url.pathGuard = "" := by
    simp only [pathGuard, ha]
  simp only [Url.text, authorityText, ha, hguard, rest, Authority.text, String.toList_append,
    String.append_empty, List.append_assoc]
  rfl

theorem rest_visible {c : Char} (hc : c ∈ rest url) : 0x20 < c.toNat := by
  simp only [rest, List.mem_append] at hc
  rcases hc with (hc | hc) | hc
  · exact (path_plain h hc).1
  · unfold queryText at hc
    split at hc
    · rename_i query hquery
      rw [String.toList_append, List.mem_append] at hc
      rcases hc with hc | hc
      · rw [List.mem_singleton.mp hc]
        decide
      · exact (h.query c (by rw [hquery]; exact hc)).1
    · exact absurd hc List.not_mem_nil
  · unfold fragmentText at hc
    split at hc
    · rename_i fragment hfragment
      rw [String.toList_append, List.mem_append] at hc
      rcases hc with hc | hc
      · rw [List.mem_singleton.mp hc]
        decide
      · exact h.fragment c (by rw [hfragment]; exact hc)
    · exact absurd hc List.not_mem_nil

omit h in
theorem rest_eq (url : Url) : rest url = url.path.text.toList ++ behindPath url :=
  List.append_assoc _ _ _

-- The rest starts with a slash, a question mark or a number sign, if there is any.
theorem rest_ends : ∀ c ∈ (rest url).head?, endsAuthority true c = true := by
  have hpath : ∀ c ∈ url.path.text.toList.head?, endsAuthority true c = true := by
    obtain ⟨parts, hparts, -⟩ := h.path
    rw [hparts]
    by_cases hne : parts = []
    · subst hne
      exact nofun
    · rw [Path.text_eq_intercalate hne, String.toList_append]
      rintro c ⟨⟩
      decide
  intro c hc
  rw [rest_eq, List.head?_append, Option.mem_def, Option.or_eq_some_iff] at hc
  rcases hc with hc | ⟨-, hc⟩
  · exact hpath c hc
  · have hends := behindPath_head url c hc
    simp only [endsPath, Bool.or_eq_true] at hends
    simp only [endsAuthority, Bool.or_eq_true]
    exact .inl (hends.elim (fun h => .inl (.inr h)) .inr)

theorem query_rest :
    (Parser.queryAndFragment true ((rest url).dropWhile (!endsPath ·))).1 = url.query := by
  rw [rest_eq, dropWhile_path url fun c hc => (path_plain h hc).2, Parser.query_eq,
    queryIn?_behindPath url fun hc => (h.query '#' hc).2.1 rfl]
  cases hquery : url.query with
  | none => rfl
  | some query =>
    have hencode : Percent.encode (Percent.inQuery true) query.toList = query.toList :=
      Percent.encode_of_plain fun c hc => (h.query c (by rw [hquery]; exact hc)).2.2
    simp only [Option.map_some, hencode, String.ofList_toList]

theorem text_visible {c : Char} (hc : c ∈ url.text.toList) : 0x20 < c.toNat := by
  obtain ⟨a, ha, hreadable⟩ := h.authority
  rw [text_eq h ha] at hc
  simp only [List.mem_append, List.mem_cons] at hc
  rcases hc with hc | rfl | rfl | rfl | hc | hc
  · have hall : ∀ c ∈ "http".toList ++ "https".toList, 0x20 < c.toNat := by simp
    rcases h.scheme with hscheme | hscheme <;> rw [hscheme] at hc
    · exact hall c (List.mem_append_left _ hc)
    · exact hall c (List.mem_append_right _ hc)
  · decide
  · decide
  · decide
  · exact (Authority.text_plain hreadable hc).1
  · exact rest_visible h hc

theorem scheme?_text (cs : List Char) :
    Parser.scheme? (url.scheme.toList ++ ':' :: cs) = some (url.scheme, cs) := by
  rcases h.scheme with hscheme | hscheme <;> rw [hscheme]
  · exact Parser.scheme?_append (by decide) (by decide) (by decide)
  · exact Parser.scheme?_append (by decide) (by decide) (by decide)

-- The text reads as an address with the same query.
theorem parse_text : ∃ again, parse url.text = .ok again ∧ again.query = url.query := by
  obtain ⟨a, ha, hreadable⟩ := h.authority
  obtain ⟨found, hfound⟩ := Authority.authority_text hreadable (special h) (rest url)
  obtain ⟨again, hagain, hquery⟩ := Parser.withAuthority_ok (special h)
    (fun c hc => (Authority.text_plain hreadable hc).2) (rest_ends h) hfound
  refine ⟨again, ?_, by rw [hquery, query_rest h]⟩
  have hfile : url.scheme ≠ "file" := by
    rcases h.scheme with hscheme | hscheme <;> rw [hscheme] <;> decide
  rw [parse, Parser.clean_of_visible fun c hc => text_visible h hc, text_eq h ha, scheme?_text h]
  simp only [if_neg hfile, special h, if_true, Authority.slashes_text hreadable, hagain]

end Readable

section Parsed

theorem mem_encode_inUserinfo (cs : List Char) : ∀ c ∈ Percent.encode Percent.inUserinfo cs,
    0x20 < c.toNat ∧ endsAuthority true c = false := by
  have hcontrol : ∀ c, Percent.isControl c = true → Percent.inUserinfo c = true := by
    intro c hc
    simp [Percent.inUserinfo, Percent.inPath, Percent.inFragment, hc]
  exact Percent.forall_mem_encode_ascii (by decide) hcontrol (Text.forall_ascii (by decide +kernel)) cs

theorem mem_encode_inPath (cs : List Char) : ∀ c ∈ Percent.encode Percent.inPath cs,
    0x20 < c.toNat ∧ endsPath c = false := by
  have hcontrol : ∀ c, Percent.isControl c = true → Percent.inPath c = true := by
    intro c hc
    simp [Percent.inPath, Percent.inFragment, hc]
  exact Percent.forall_mem_encode_ascii (by decide) hcontrol (Text.forall_ascii (by decide)) cs

theorem mem_encode_inQuery (special : Bool) (cs : List Char) :
    ∀ c ∈ Percent.encode (Percent.inQuery special) cs,
      0x20 < c.toNat ∧ c ≠ '#' ∧ Percent.inQuery special c = false := by
  have hcontrol : ∀ c, Percent.isControl c = true → Percent.inQuery special c = true := by
    intro c hc
    simp [Percent.inQuery, hc]
  exact Percent.forall_mem_encode_ascii (by cases special <;> decide) hcontrol
    (Text.forall_ascii (by cases special <;> decide)) cs

theorem mem_encode_inFragment (cs : List Char) : ∀ c ∈ Percent.encode Percent.inFragment cs,
    0x20 < c.toNat := by
  have hcontrol : ∀ c, Percent.isControl c = true → Percent.inFragment c = true := by
    intro c hc
    simp [Percent.inFragment, hc]
  exact Percent.forall_mem_encode_ascii (by decide) hcontrol (Text.forall_ascii (by decide)) cs

theorem authority_readable {scheme : String} {cs behind left : List Char} {a : Authority}
    (hspecial : isSpecial scheme = true)
    (h : Parser.authority scheme cs behind = .ok (a, left)) : a.Readable := by
  obtain ⟨userinfo, host, huser, hhost, hport⟩ := Parser.eq_of_authority h
  rw [if_pos hspecial] at hhost
  simp only [Parser.credentials, Prod.mk.injEq] at huser
  constructor
  · intro c hc
    rw [huser.1, String.toList_ofList] at hc
    exact mem_encode_inUserinfo _ c hc
  · intro c hc
    rw [huser.2, String.toList_ofList] at hc
    exact mem_encode_inUserinfo _ c hc
  · exact Parser.specialHost_readable hhost
  · intro n hn
    rcases hport with hnone | ⟨port, hport⟩
    · rw [hnone] at hn
      exact nomatch hn
    · rw [hn] at hport
      exact Parser.port?_le hport

theorem Path.Readable.append {front behind : List String} (hfront : Path.Readable front)
    (hbehind : Path.Readable behind) : Path.Readable (front ++ behind) :=
  fun part hpart => (List.mem_append.mp hpart).elim (hfront part) (hbehind part)

theorem Path.readable_nil : Path.Readable [] := fun _ h => absurd h List.not_mem_nil

theorem Path.readable_empty : Path.Readable [""] := by
  intro part hpart c hc
  rw [List.mem_singleton.mp hpart] at hc
  exact absurd hc List.not_mem_nil

theorem Path.shorten_readable {segments : List String} (h : Path.Readable segments) :
    Path.Readable (Path.shorten segments) :=
  fun part hpart => h part ((Path.shorten_isPrefix segments).subset hpart)

theorem addParsed_readable {segments : List String} (h : Path.Readable segments) (raw : List Char)
    (isLast : Bool) : Path.Readable (Path.addParsed segments raw isLast) := by
  have hend : Path.Readable (if isLast then [""] else []) := by
    split
    · exact Path.readable_empty
    · exact Path.readable_nil
  unfold Path.addParsed
  split
  · exact (Path.shorten_readable h).append hend
  · split
    · exact h.append hend
    · refine h.append fun part hpart c hc => ?_
      rw [List.mem_singleton.mp hpart, String.toList_ofList] at hc
      exact mem_encode_inPath _ c hc

theorem ofParts_readable {segments : List String} (h : Path.Readable segments)
    (parts : List (List Char)) : Path.Readable (Path.ofParts segments parts) := by
  induction segments, parts using Path.ofParts.induct with
  | case1 segments => exact h
  | case2 segments raw => exact addParsed_readable h raw true
  | case3 segments raw rest hrest ih =>
    rw [Path.ofParts.eq_3 _ _ _ hrest]
    exact ih (addParsed_readable h raw false)

theorem segments_readable (special : Bool) (cs : List Char) :
    Path.Readable (Parser.segments special cs) := by
  unfold Parser.segments
  split
  · split
    · exact Path.readable_empty
    · exact Path.readable_nil
  · exact ofParts_readable Path.readable_nil _

theorem mem_query (special : Bool) (cs : List Char) :
    ∀ c ∈ ((Parser.queryAndFragment special cs).1.getD "").toList,
      0x20 < c.toNat ∧ c ≠ '#' ∧ Percent.inQuery special c = false := by
  intro c hc
  simp only [Parser.queryAndFragment] at hc
  split at hc
  · rw [Option.getD_some, String.toList_ofList] at hc
    exact mem_encode_inQuery _ _ c hc
  · exact absurd hc List.not_mem_nil

theorem mem_fragment (special : Bool) (cs : List Char) :
    ∀ c ∈ ((Parser.queryAndFragment special cs).2.getD "").toList, 0x20 < c.toNat := by
  intro c hc
  simp only [Parser.queryAndFragment] at hc
  split at hc
  · rw [Option.getD_some, String.toList_ofList] at hc
    exact mem_encode_inFragment _ c hc
  · exact absurd hc List.not_mem_nil

theorem withAuthority_of_parse {s : String} {url : Url} (h : parse s = .ok url)
    (hscheme : url.scheme = "http" ∨ url.scheme = "https") :
    ∃ cs, Parser.withAuthority url.scheme cs = .ok url := by
  have hnamed : ∀ scheme cs, Parser.withAuthority scheme cs = .ok url →
      ∃ cs, Parser.withAuthority url.scheme cs = .ok url := by
    intro scheme cs h
    obtain ⟨a, left, written, behind, path, rest, -, hurl⟩ := Parser.withAuthority_inv h
    have heq : url.scheme = scheme := by rw [hurl]
    exact ⟨cs, by rw [heq, h]⟩
  obtain ⟨scheme, rest, -, ⟨-, hfile⟩ | ⟨-, cs, hcs⟩ | ⟨-, -, cs, hcs⟩ | ⟨hspecial, rfl⟩⟩ :=
    Parser.parse_cases h
  · obtain ⟨host, hostText, path, rest, -, rfl⟩ := Parser.file_inv hfile
    have hscheme : "file" = "http" ∨ "file" = "https" := hscheme
    exact absurd hscheme (by decide)
  · exact hnamed scheme cs hcs
  · exact hnamed scheme cs hcs
  · have hscheme : scheme = "http" ∨ scheme = "https" := hscheme
    rcases hscheme with rfl | rfl <;> exact absurd hspecial (by decide)

-- Every web address that was read.
theorem readable_of_parse {s : String} {url : Url} (h : parse s = .ok url)
    (hscheme : url.scheme = "http" ∨ url.scheme = "https") : url.Readable := by
  obtain ⟨cs, hcs⟩ := withAuthority_of_parse h hscheme
  have hspecial : isSpecial url.scheme = true := by
    rcases hscheme with h | h <;> rw [h] <;> decide
  obtain ⟨a, left, written, behind, path, rest, ha, hurl⟩ := Parser.withAuthority_inv hcs
  rw [hspecial] at hurl
  have hquery : url.query = (Parser.queryAndFragment true rest).1 := by rw [hurl]
  have hfragment : url.fragment = (Parser.queryAndFragment true rest).2 := by rw [hurl]
  refine ⟨hscheme, ⟨a, by rw [hurl], authority_readable hspecial ha⟩,
    ⟨_, by rw [hurl], segments_readable true path⟩, ?_, ?_⟩
  · rw [hquery]
    exact mem_query true rest
  · rw [hfragment]
    exact mem_fragment true rest

end Parsed

section Extended

theorem mem_escaped (special : Bool) (segment : String) :
    ∀ c ∈ (Path.escaped special segment).toList, 0x20 < c.toNat ∧ endsPath c = false := by
  rw [Path.escaped, String.toList_ofList]
  exact Percent.forall_mem_encode_ascii (by decide) (Path.inSegment_sound special).control
    (Text.forall_ascii (by cases special <;> decide)) segment.toList

theorem Path.Readable.foldl_push {front : List String} (h : Path.Readable front) (special : Bool)
    (added : List String) : Path.Readable (added.foldl (Path.push special) front) := by
  obtain ⟨kept, written, hkept, hwritten, hfold⟩ := Path.foldl_push_written special front added
  rw [hfold]
  refine Path.Readable.append (fun part hpart => h part (hkept.subset hpart)) fun part hpart c hc => ?_
  obtain ⟨segment, -, rfl⟩ := hwritten part hpart
  exact mem_escaped _ _ c hc

theorem Path.Readable.popEmpty {segments : List String} (h : Path.Readable segments) :
    Path.Readable (Path.popEmpty segments) := by
  unfold Path.popEmpty
  split
  · exact fun part hpart => h part ((List.dropLast_prefix segments).subset hpart)
  · exact h

variable {url extended : Url} {change : List String → List String} {added : List String}
  (h : url.extend? change added = some extended)
include h

theorem extend?_parts : ∃ parts, url.path = .segments parts ∧
    extended = { url with path := .segments (added.foldl (Path.push url.special) (change parts)) } := by
  unfold extend? at h
  split at h
  · rename_i parts hparts
    exact ⟨parts, hparts, (Option.some.inj h).symm⟩
  · exact nomatch h

theorem Readable.extend? (hurl : url.Readable)
    (hchange : ∀ parts, Path.Readable parts → Path.Readable (change parts)) : extended.Readable := by
  obtain ⟨parts, hparts, rfl⟩ := extend?_parts h
  obtain ⟨front, hfront, hplain⟩ := hurl.path
  rw [hparts] at hfront
  cases hfront
  exact ⟨hurl.scheme, hurl.authority, ⟨_, rfl, (hchange parts hplain).foldl_push _ _⟩, hurl.query,
    hurl.fragment⟩

omit h in
theorem Readable.appendQuery (hurl : url.Readable) (pairs : List (String × String)) :
    (url.appendQuery pairs).Readable := by
  refine ⟨hurl.scheme, hurl.authority, hurl.path, fun c hc => ?_, hurl.fragment⟩
  rw [Url.appendQuery, Option.getD_some, String.toList_ofList] at hc
  refine Query.forall_mem_appendPairs
    (p := fun c => 0x20 < c.toNat ∧ c ≠ '#' ∧ Percent.inQuery true c = false) (by decide) ?_
    hurl.query pairs hc
  intro c hc
  obtain ⟨hvisible, hmark, -, -, hplain⟩ := Query.isWritten_visible true hc
  exact ⟨hvisible, hmark, hplain⟩

omit h in
theorem queryPairs_appendQuery (url : Url) (pairs : List (String × String)) :
    (url.appendQuery pairs).queryPairs = url.queryPairs ++ pairs := by
  simp only [Url.appendQuery, queryPairs, Query.decode_appendPairs, String.ofList_toList]
  cases url.query with
  | none => rfl
  | some query => rfl

end Extended

end BlobStorage.Url
