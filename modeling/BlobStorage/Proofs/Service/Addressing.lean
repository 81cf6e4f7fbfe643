import BlobStorage.Proofs.Url.Reading
import BlobStorage.Service.Endpoint
import Mathlib

-- Which blob a URL stands for. The check for dot segments looks at the name as given, whereas tabs
-- and line ends are dropped from it later: names without them, and only those, are addressed as they
-- are.
namespace BlobStorage

namespace Url

-- The segments of a service that its containers are found under: an empty one at the end does not
-- count, and neither does an empty one that is alone.
def trunk (parts : List String) : List String :=
  if Path.popEmpty parts = [""] then [] else Path.popEmpty parts

-- The path of a service without a slash at its end.
def servicePath (url : Url) : String :=
  match url.path with
  | .segments parts => (Path.segments (trunk parts)).text
  | .plain text => text

end Url

namespace Service.Endpoint

open Url (Path Percent.decodeText? servicePath trunk)
open Url.Path (Undropped escaped)

-- Container names consist of letters, digits and hyphens.
def ContainerName (name : String) : Prop :=
  name ≠ "" ∧ ∀ c ∈ name.toList, c.isAlphanum = true ∨ c = '-'

instance (name : String) : Decidable (ContainerName name) :=
  @instDecidableAnd _ _ _ (List.decidableBAll (fun c => c.isAlphanum = true ∨ c = '-') name.toList)

-- The name that stands behind the container: its parts between slashes decoded and joined.
def keyAt? (rest : String) : Option String :=
  ((Text.split '/' rest).mapM Percent.decodeText?).map ("/".intercalate ·)

-- A URL stands for a blob of the endpoint's container.
def Addresses (e : Endpoint) (key : String) (url : Url) : Prop :=
  ∃ rest, url.path.text = servicePath e.base ++ "/" ++ e.container ++ "/" ++ rest ∧
    keyAt? rest = some key

-- The segments of the URL of a name, for a service with the given ones.
def blobSegments (e : Endpoint) (parts : List String) (key : String) : List String :=
  (Text.split '/' key).foldl (Path.push e.base.special) (trunk parts ++ [e.container])

theorem hasDotSegment_iff (key : String) :
    hasDotSegment key = true ↔ "." ∈ Text.split '/' key ∨ ".." ∈ Text.split '/' key := by
  simp only [hasDotSegment, List.any_eq_true, Bool.or_eq_true, beq_iff_eq]
  constructor
  · rintro ⟨segment, hmem, rfl | rfl⟩
    · exact .inl hmem
    · exact .inr hmem
  · rintro (hmem | hmem)
    · exact ⟨_, hmem, .inl rfl⟩
    · exact ⟨_, hmem, .inr rfl⟩

theorem toNat_lt_of_alphanum {c : Char} (h : c.isAlphanum = true) : c.toNat < 128 := by
  simp only [Char.isAlphanum, Char.isAlpha, Char.isUpper, Char.isLower, Char.isDigit,
    Bool.or_eq_true, Bool.and_eq_true, decide_eq_true_eq, ge_iff_le, UInt32.le_iff_toNat_le] at h
  have hn : c.toNat = c.val.toNat := rfl
  have hz : 'z'.val.toNat = 122 := rfl
  have hZ : 'Z'.val.toNat = 90 := rfl
  have h9 : '9'.val.toNat = 57 := rfl
  omega

theorem nameChar_plain (special : Bool) {c : Char} (h : c.isAlphanum = true ∨ c = '-') :
    Url.Percent.inSegment special c = false ∧ Path.isDropped c = false ∧ c ≠ '/' ∧ c ≠ '.' := by
  have hall : ∀ c : Char, c.toNat < 128 → c.isAlphanum = true ∨ c = '-' →
      Url.Percent.inSegment special c = false ∧ Path.isDropped c = false ∧ c ≠ '/' ∧ c ≠ '.' :=
    Text.forall_ascii (by cases special <;> decide)
  exact hall c (h.elim toNat_lt_of_alphanum (by rintro rfl; decide)) h

section Container

variable {name : String} (hname : ContainerName name)

include hname

theorem containerName_escaped (special : Bool) : escaped special name = name := by
  rw [escaped, Url.Percent.encode_of_plain fun c hc => (nameChar_plain special (hname.2 c hc)).1,
    String.ofList_toList]

theorem containerName_undropped : Undropped name := fun c hc =>
  (nameChar_plain true (hname.2 c hc)).2.1

theorem slash_not_mem_containerName : '/' ∉ name.toList := fun h =>
  (nameChar_plain true (hname.2 _ h)).2.2.1 rfl

theorem containerName_ne_dots : name ≠ "." ∧ name ≠ ".." := by
  constructor
  · rintro rfl
    exact (nameChar_plain true (hname.2 '.' (by decide))).2.2.2 rfl
  · rintro rfl
    exact (nameChar_plain true (hname.2 '.' (by decide))).2.2.2 rfl

end Container

section Paths

variable {e : Endpoint} {parts : List String} (hparts : e.base.path = .segments parts)
  (hname : ContainerName e.container)

include hparts hname

theorem containerUrl_eq :
    e.containerUrl = .ok { e.base with path := .segments (trunk parts ++ [e.container]) } := by
  obtain ⟨hsingle, hdouble⟩ := containerName_ne_dots hname
  have hpush : Path.push e.base.special (Path.popEmpty parts) e.container =
      trunk parts ++ [e.container] := by
    rw [Path.push_data hsingle hdouble (containerName_undropped hname), containerName_escaped hname,
      trunk]
  simp only [containerUrl, Url.extend?, hparts, List.foldl_cons, List.foldl_nil, hpush]

-- The URL of a name that passes the check.
theorem blobUrl_eq {key : String} (hkey : key ≠ "") (hdots : hasDotSegment key = false) :
    e.blobUrl key = .ok { e.base with path := .segments (e.blobSegments parts key) } := by
  rw [blobUrl, if_neg hkey, hdots, containerUrl_eq hparts hname]
  rfl

theorem blobUrl_error_iff (key : String) :
    (∃ failure, e.blobUrl key = .error failure) ↔ key = "" ∨ hasDotSegment key = true := by
  constructor
  · rintro ⟨failure, h⟩
    by_cases hkey : key = ""
    · exact .inl hkey
    cases hdots : hasDotSegment key with
    | true => exact .inr rfl
    | false =>
      rw [blobUrl_eq hparts hname hkey hdots] at h
      exact nomatch h
  · intro h
    rw [blobUrl]
    split
    · exact ⟨_, rfl⟩
    · rename_i hkey
      rw [if_pos (h.resolve_left hkey)]
      exact ⟨_, rfl⟩

theorem eq_of_blobUrl {key : String} {url : Url} (h : e.blobUrl key = .ok url) :
    hasDotSegment key = false ∧
      url = { e.base with path := .segments (e.blobSegments parts key) } := by
  have hnot : ¬(key = "" ∨ hasDotSegment key = true) := by
    intro hn
    obtain ⟨failure, hfailure⟩ := (blobUrl_error_iff hparts hname key).mpr hn
    rw [h] at hfailure
    exact nomatch hfailure
  have hdots : hasDotSegment key = false := by simpa using fun hd => hnot (.inr hd)
  rw [blobUrl_eq hparts hname (fun hk => hnot (.inl hk)) hdots] at h
  exact ⟨hdots, (Except.ok.inj h).symm⟩

omit hparts in
-- A name without dropped characters is appended part by part.
theorem blobSegments_eq {key : String} (hdots : hasDotSegment key = false) (hplain : Undropped key) :
    e.blobSegments parts key =
      trunk parts ++ [e.container] ++ (Text.split '/' key).map (escaped e.base.special) := by
  have hnone : ¬("." ∈ Text.split '/' key ∨ ".." ∈ Text.split '/' key) := by
    rw [← hasDotSegment_iff, hdots]
    decide
  exact Path.foldl_push_data
    ⟨e.container, List.mem_append_right _ (List.mem_singleton.mpr rfl), hname.1⟩
    (fun h => hnone (.inl h)) (fun h => hnone (.inr h))
    (fun s hs c hc => hplain c (Text.mem_of_mem_split hs hc).1)

end Paths

section Names

theorem mapM_decodeText? (special : Bool) (parts : List String) :
    (parts.map (escaped special)).mapM Url.Percent.decodeText? = some parts := by
  induction parts with
  | nil => rfl
  | cons part more ih =>
    rw [List.map_cons, List.mapM_cons, Path.decodeText?_escaped, ih]
    rfl

-- The parts of a name, escaped and joined, stand for the name.
theorem keyAt?_escaped (special : Bool) (key : String) :
    keyAt? ("/".intercalate ((Text.split '/' key).map (escaped special))) = some key := by
  have hne : (Text.split '/' key).map (escaped special) ≠ [] := fun h =>
    Text.split_ne_nil '/' key (List.map_eq_nil_iff.mp h)
  have hslash : ∀ part ∈ (Text.split '/' key).map (escaped special), '/' ∉ part.toList := by
    intro part hpart
    obtain ⟨s, _, rfl⟩ := List.mem_map.mp hpart
    exact Path.slash_not_mem_escaped special s
  have hsplit := Text.split_intercalate hne hslash
  have hjoin := Text.intercalate_split '/' key
  rw [keyAt?]
  rw [show "/" = String.singleton '/' from rfl, hsplit, mapM_decodeText?, Option.map_some, hjoin]

theorem undropped_of_mapM {special : Bool} {parts texts : List String}
    (htexts : parts.mapM Url.Percent.decodeText? = some texts)
    (hwritten : ∀ part ∈ parts, Path.Written special part) : ∀ t ∈ texts, Undropped t := by
  induction parts generalizing texts with
  | nil =>
    cases htexts
    exact fun t ht => absurd ht List.not_mem_nil
  | cons part more ih =>
    obtain ⟨s, hs, rfl⟩ := hwritten part List.mem_cons_self
    simp only [List.mapM_cons, Path.decodeText?_escaped, Option.bind_eq_bind, Option.bind_some,
      Option.bind_eq_some_iff] at htexts
    obtain ⟨others, hothers, hcons⟩ := htexts
    cases hcons
    intro t ht
    rcases List.mem_cons.mp ht with rfl | ht
    · exact hs
    · exact ih hothers (fun p hp => hwritten p (List.mem_cons_of_mem _ hp)) t ht

-- A name that stands for segments that were all written has no dropped characters.
theorem undropped_of_keyAt? {special : Bool} {rest key : String} (h : keyAt? rest = some key)
    (hwritten : ∀ part ∈ Text.split '/' rest, Path.Written special part) : Undropped key := by
  obtain ⟨texts, htexts, rfl⟩ := Option.map_eq_some_iff.mp h
  exact Path.undropped_intercalate (undropped_of_mapM htexts hwritten)

end Names

section Addressed

variable {e : Endpoint} {parts : List String} (hparts : e.base.path = .segments parts)
  (hname : ContainerName e.container)

include hparts

theorem servicePath_eq : servicePath e.base = (Path.segments (trunk parts)).text := by
  rw [servicePath, hparts]

include hname

-- The URL of a name without dropped characters stands for the name.
theorem addresses_of_undropped {key : String} (hdots : hasDotSegment key = false)
    (hplain : Undropped key) :
    e.Addresses key { e.base with path := .segments (e.blobSegments parts key) } := by
  have hne : (Text.split '/' key).map (escaped e.base.special) ≠ [] := fun h =>
    Text.split_ne_nil '/' key (List.map_eq_nil_iff.mp h)
  refine ⟨_, ?_, keyAt?_escaped e.base.special key⟩
  rw [blobSegments_eq hname hdots hplain, Path.text_append, Path.text_append, Path.text_singleton,
    Path.text_eq_intercalate hne, servicePath_eq hparts]
  simp only [String.append_assoc]

omit hname in
-- A URL that stands for a name was written without dropping anything of the name: what lies behind
-- the container was written, and nothing that was written decodes to a dropped character.
theorem undropped_of_addresses {key name : String}
    (h : e.Addresses key { e.base with path := .segments (e.blobSegments parts name) }) :
    Undropped key := by
  obtain ⟨rest, htext, hkey⟩ := h
  obtain ⟨kept, written, ⟨lost, hlost⟩, hwritten, hfold⟩ :=
    Path.foldl_push_written e.base.special (trunk parts ++ [e.container]) (Text.split '/' name)
  have hsegments : e.blobSegments parts name = kept ++ written := hfold
  have hfront : servicePath e.base ++ "/" ++ e.container =
      (Path.segments kept).text ++ (Path.segments lost).text := by
    rw [← Path.text_append, hlost, Path.text_append, Path.text_singleton, servicePath_eq hparts,
      String.append_assoc]
  have hbehind : (Path.segments written).text =
      String.ofList ((Path.segments lost).text.toList ++ '/' :: rest.toList) := by
    rw [hsegments, Path.text_append, hfront, String.append_assoc, String.append_assoc] at htext
    rw [(String.append_right_inj _).mp htext, ← List.singleton_append, String.ofList_append,
      String.ofList_append, String.ofList_toList, String.ofList_toList]
  refine @undropped_of_keyAt? e.base.special _ _ hkey fun part hpart => ?_
  have hmem : part ∈ Text.split '/' (Path.segments written).text := by
    rw [hbehind, Text.split_append_cons, String.ofList_toList, String.ofList_toList]
    exact List.mem_append_right _ hpart
  rcases Path.mem_split_text (fun s hs => Path.slash_not_mem_of_written (hwritten s hs)) hmem with
    rfl | hmem
  · exact Path.written_empty e.base.special
  · exact hwritten part hmem

end Addressed

-- A URL stands for one blob of one container.
theorem addresses_unique {e : Endpoint} {container key other : String} {url : Url}
    (hname : ContainerName e.container) (hname' : ContainerName container)
    (h : e.Addresses key url) (h' : Addresses { e with container := container } other url) :
    container = e.container ∧ other = key := by
  obtain ⟨rest, htext, hkey⟩ := h
  obtain ⟨rest', htext', hother⟩ := h'
  have hbehind : e.container.toList ++ '/' :: rest.toList =
      container.toList ++ '/' :: rest'.toList := by
    have hsame := htext.symm.trans htext'
    simp only [String.append_assoc] at hsame
    have hcut := congrArg String.toList
      ((String.append_right_inj _).mp ((String.append_right_inj _).mp hsame))
    simp only [String.toList_append] at hcut
    exact hcut
  have hsplit := congrArg (List.splitOn '/') hbehind
  rw [List.splitOn_append_cons_self_of_not_mem (slash_not_mem_containerName hname),
    List.splitOn_append_cons_self_of_not_mem (slash_not_mem_containerName hname')] at hsplit
  obtain ⟨hcontainer, hrest⟩ := List.cons.inj hsplit
  have hrest : rest = rest' := by
    have hjoin := congrArg (List.intercalate ['/']) hrest
    rw [List.intercalate_splitOn, List.intercalate_splitOn] at hjoin
    exact String.toList_inj.mp hjoin
  refine ⟨(String.toList_inj.mp hcontainer).symm, ?_⟩
  rw [hrest, hother] at hkey
  exact Option.some.inj hkey

-- A name is refused if it is empty or has a dot segment. The URL of any other keeps the service's
-- scheme and authority, and stands for the name exactly if it has no tab, line feed or carriage
-- return. Such names and their containers can be told from the URL.
theorem blobUrl_addresses_iff {e : Endpoint} (hbase : Url.parse e.address = .ok e.base)
    (hscheme : e.base.scheme = "http" ∨ e.base.scheme = "https") (hname : ContainerName e.container)
    (key : String) :
    ((∃ failure, e.blobUrl key = .error failure) ↔
      key = "" ∨ "." ∈ Text.split '/' key ∨ ".." ∈ Text.split '/' key) ∧
    (∀ url, e.blobUrl key = .ok url →
      url.scheme = e.base.scheme ∧ url.authority = e.base.authority ∧
        (e.Addresses key url ↔ Undropped key)) ∧
    ∀ container other url, ContainerName container → Undropped key → Undropped other →
      e.blobUrl key = .ok url → blobUrl { e with container := container } other = .ok url →
        container = e.container ∧ other = key := by
  obtain ⟨parts, hparts, -⟩ := (Url.readable_of_parse hbase hscheme).path
  refine ⟨?_, ?_, ?_⟩
  · rw [blobUrl_error_iff hparts hname, hasDotSegment_iff]
  · intro url h
    obtain ⟨hdots, rfl⟩ := eq_of_blobUrl hparts hname h
    exact ⟨rfl, rfl, undropped_of_addresses hparts, addresses_of_undropped hparts hname hdots⟩
  · intro container other url hname' hplain hplain' h h'
    obtain ⟨hdots, hurl⟩ := eq_of_blobUrl hparts hname h
    obtain ⟨hdots', hurl'⟩ :=
      eq_of_blobUrl (e := { e with container := container }) hparts hname' h'
    have haddresses := addresses_of_undropped hparts hname hdots hplain
    have haddresses' :=
      addresses_of_undropped (e := { e with container := container }) hparts hname' hdots' hplain'
    rw [← hurl] at haddresses
    rw [← hurl'] at haddresses'
    exact addresses_unique hname hname' haddresses haddresses'

-- A service on the local network.
def localService : Endpoint where
  credential := ⟨"account", [1, 2, 3]⟩
  address := "http://blob.local"
  base := ⟨"http", some ⟨"", "", .name "blob.local", none⟩, .segments [""], none, none⟩
  container := "releases"
  now := .ofSeconds 0

theorem localService_base : Url.parse localService.address = .ok localService.base := by
  decide +kernel

theorem localService_container : ContainerName localService.container := by
  decide +kernel

theorem blobUrl_addresses_escapes :
    (Url.parse localService.address = .ok localService.base ∧
      localService.base.scheme = "http" ∧ ContainerName localService.container) ∧
    ∃ url, localService.blobUrl "//a%2e/%2E%2e\\..\\ü?#/" = .ok url ∧
      localService.Addresses "//a%2e/%2E%2e\\..\\ü?#/" url := by
  have h := blobUrl_addresses_iff localService_base (.inl rfl) localService_container
    "//a%2e/%2E%2e\\..\\ü?#/"
  refine ⟨⟨localService_base, rfl, localService_container⟩, ?_⟩
  cases hurl : localService.blobUrl "//a%2e/%2E%2e\\..\\ü?#/" with
  | error failure => exact absurd (h.1.mp ⟨failure, hurl⟩) (by decide +kernel)
  | ok url => exact ⟨url, rfl, (h.2.1 url hurl).2.2.mpr (by decide +kernel)⟩

-- With a tab between its dots a segment passes the check, and then leads out of the container.
theorem blobUrl_leaves_container :
    ¬(".\t./other/x" = "" ∨ "." ∈ Text.split '/' ".\t./other/x" ∨
      ".." ∈ Text.split '/' ".\t./other/x") ∧
    ∃ url, localService.blobUrl ".\t./other/x" = .ok url ∧
      ¬localService.Addresses ".\t./other/x" url ∧
      blobUrl { localService with container := "other" } "x" = .ok url := by
  have hparts : localService.base.path = .segments [""] := rfl
  have hdots : hasDotSegment ".\t./other/x" = false := by decide +kernel
  have hother : ContainerName "other" := by decide +kernel
  refine ⟨by decide +kernel, _, blobUrl_eq hparts localService_container (by decide) hdots, ?_, ?_⟩
  · intro h
    have hplain := undropped_of_addresses hparts h
    exact absurd hplain (by decide +kernel)
  · rw [blobUrl_eq (e := { localService with container := "other" }) hparts hother (by decide)
      (by decide +kernel)]
    rfl

end Service.Endpoint

end BlobStorage
