import BlobStorage.Proofs.Client.Timeout
import BlobStorage.Proofs.Service.Answered

-- What is certain once a configuration has been read and an endpoint made of it, and what may still go
-- wrong: a key of nothing but blanks has no bytes, and an address need not have room for segments.
namespace BlobStorage

namespace Url

open BlobStorage.Url.Parser

-- An address whose path has segments: its scheme is special, or a slash follows the scheme.
def Hierarchical (address : String) : Prop :=
  ∃ scheme rest, scheme? (clean address) = some (scheme, rest) ∧
    (isSpecial scheme = true ∨ rest.head? = some '/')

theorem withoutAuthority_segments_iff (scheme : String) (cs : List Char) :
    (∃ parts, (withoutAuthority scheme cs).path = .segments parts) ↔ cs.head? = some '/' := by
  constructor
  · rintro ⟨parts, h⟩
    unfold withoutAuthority at h
    dsimp only at h
    split at h
    · rename_i rest hwritten
      have hcut : '/' :: rest <+: cs := hwritten ▸ List.takeWhile_prefix _
      obtain ⟨behind, rfl⟩ := hcut
      rfl
    · exact nomatch h
  · intro h
    obtain ⟨rest, rfl⟩ := List.head?_eq_some_iff.mp h
    have hwritten : ('/' :: rest).takeWhile (!endsPath ·) = '/' :: rest.takeWhile (!endsPath ·) :=
      List.takeWhile_cons_of_pos (by decide)
    simp only [withoutAuthority, hwritten]
    exact ⟨_, rfl⟩

theorem hierarchical_iff_of_parse {s : String} {url : Url} (h : parse s = .ok url) :
    Hierarchical s ↔ ∃ parts, url.path = .segments parts := by
  obtain ⟨scheme, rest, hread, hways⟩ := parse_cases h
  have hkind : Hierarchical s ↔ isSpecial scheme = true ∨ rest.head? = some '/' := by
    constructor
    · rintro ⟨scheme', rest', hread', hkind⟩
      cases hread.symm.trans hread'
      exact hkind
    · intro hkind
      exact ⟨scheme, rest, hread, hkind⟩
  have hauthority : ∀ cs, withAuthority scheme cs = .ok url → ∃ parts, url.path = .segments parts := by
    intro cs hcs
    obtain ⟨a, left, written, behind, path, rest, -, rfl⟩ := withAuthority_inv hcs
    exact ⟨_, rfl⟩
  rw [hkind]
  rcases hways with ⟨rfl, hfile⟩ | ⟨hspecial, cs, hcs⟩ | ⟨-, hslash, cs, hcs⟩ | ⟨hspecial, rfl⟩
  · obtain ⟨host, hostText, path, rest, -, rfl⟩ := file_inv hfile
    exact ⟨fun _ => ⟨_, rfl⟩, fun _ => .inl (by decide)⟩
  · exact ⟨fun _ => hauthority cs hcs, fun _ => .inl hspecial⟩
  · exact ⟨fun _ => hauthority cs hcs, fun _ => .inr hslash⟩
  · rw [withoutAuthority_segments_iff, hspecial]
    exact or_iff_right Bool.false_ne_true

end Url

namespace Configuration

variable {c : Configuration}

-- What a configuration that was read has been checked for.
theorem checked_of_ofDocument {document : Bytes} (h : ofDocument document = .ok c) :
    c.accountName ≠ "" ∧ c.accountKey ≠ "" ∧ c.containerName ≠ "" ∧
      ∃ policy, c.signPolicy = .ok policy := by
  have hvalid : c.validate = .ok () := by
    unfold ofDocument at h
    split at h
    · exact nomatch h
    · rename_i configuration _
      cases hvalidate : configuration.validate with
      | error failure =>
        rw [hvalidate] at h
        exact nomatch h
      | ok checked =>
        rw [hvalidate] at h
        cases h
        exact hvalidate
  unfold validate at hvalid
  split at hvalid
  · exact nomatch hvalid
  rename_i haccount
  split at hvalid
  · exact nomatch hvalid
  rename_i hkey
  split at hvalid
  · exact nomatch hvalid
  rename_i hcontainer
  refine ⟨haccount, hkey, hcontainer, ?_⟩
  cases hpolicy : c.signPolicy with
  | error failure =>
    rw [hpolicy] at hvalid
    exact nomatch hvalid
  | ok policy => exact ⟨policy, rfl⟩

end Configuration

namespace Service.Endpoint

variable {c : Configuration} {override : Option String} {now : Instant} {e : Endpoint}

theorem containerUrl_iff :
    (∃ url, e.containerUrl = .ok url) ↔ ∃ parts, e.base.path = .segments parts := by
  constructor
  · rintro ⟨url, hurl⟩
    obtain ⟨parts, hparts, -⟩ := Url.extend?_parts (extend?_of_containerUrl hurl)
    exact ⟨parts, hparts⟩
  · rintro ⟨parts, hparts⟩
    simp only [containerUrl, Url.extend?, hparts]
    exact ⟨_, rfl⟩

theorem blobUrl_iff {key : String} (hkey : key ≠ "") (hdots : hasDotSegment key = false) :
    (∃ url, e.blobUrl key = .ok url) ↔ ∃ parts, e.base.path = .segments parts := by
  constructor
  · rintro ⟨url, hurl⟩
    obtain ⟨container, hcontainer, -⟩ := extend?_of_blobUrl hurl
    exact containerUrl_iff.mp ⟨container, hcontainer⟩
  · rintro ⟨parts, hparts⟩
    simp only [blobUrl, if_neg hkey, hdots, containerUrl, Url.extend?, hparts]
    exact ⟨_, rfl⟩

-- Blanks are no part of a key.
theorem key_ne_nil_iff (he : Endpoint.new c override now = .ok e) :
    e.credential.key ≠ [] ↔ ∃ char ∈ c.accountKey.toList, Text.isBlank char = false := by
  obtain ⟨hcredential, -⟩ := of_new he
  have hkey : Base64.decode (Text.utf8 (Text.trim c.accountKey)) = .ok e.credential.key := by
    unfold SharedKey.Credential.new at hcredential
    split at hcredential
    · exact nomatch hcredential
    · split at hcredential
      · rename_i key hdecode
        rw [← Except.ok.inj hcredential]
        exact hdecode
      · exact nomatch hcredential
  have hnil : e.credential.key = [] ↔ Text.trim c.accountKey = "" := by
    have htext := Base64.decode_eq_ok_iff.mp hkey
    constructor
    · intro hnil
      rw [hnil] at htext
      exact Text.utf8_injective htext
    · intro htrim
      by_contra hne
      rw [htrim] at htext
      exact Base64.encode_ne_nil hne htext.symm
  rw [ne_eq, hnil, Text.trim_eq_empty_iff]
  simp only [not_forall, Bool.not_eq_true, exists_prop]

section Own

-- The account's own address.
def ownAddress (c : Configuration) : String :=
  "https://" ++ c.accountName ++ "." ++ c.environment.endpoint

variable (c : Configuration)

theorem ownAddress_last : ∃ last, (ownAddress c).toList.getLast? = some last ∧
    0x20 < last.toNat ∧ (last == '/') = false := by
  have hlast : ∃ last, c.environment.endpoint.toList.getLast? = some last ∧
      0x20 < last.toNat ∧ (last == '/') = false := by
    cases c.environment <;> exact ⟨_, rfl, by decide, by decide⟩
  obtain ⟨last, hlast, hplain⟩ := hlast
  refine ⟨last, ?_, hplain⟩
  rw [ownAddress, String.toList_append, List.getLast?_append, hlast]
  rfl

-- No slash has to go at its end.
theorem addressOf_none : addressOf c none = ownAddress c := by
  obtain ⟨last, hlast, -, hslash⟩ := ownAddress_last c
  rw [addressOf, Option.getD_none, ← ownAddress, Text.dropRightWhile_eq_self,
    String.ofList_toList]
  rw [hlast]
  rintro _ ⟨⟩
  exact hslash

-- It starts with its scheme, whatever the account is called.
theorem hierarchical_own : Url.Hierarchical (addressOf c none) := by
  obtain ⟨last, hlast, hvisible, -⟩ := ownAddress_last c
  have htext : (ownAddress c).toList = "https:".toList ++
      ("//".toList ++ c.accountName.toList ++ ".".toList ++ c.environment.endpoint.toList) := by
    simp only [ownAddress, String.toList_append, ← List.append_assoc]
    rfl
  have hclean : Url.Parser.clean (ownAddress c) =
      (ownAddress c).toList.filter (!Url.Path.isDropped ·) := by
    apply Url.Parser.clean_eq_filter
    · rw [htext]
      rintro _ ⟨⟩
      decide
    · rw [hlast]
      rintro _ ⟨⟩
      exact hvisible
  have hscheme : "https:".toList.filter (!Url.Path.isDropped ·) = "https".toList ++ [':'] := by
    decide
  rw [htext, List.filter_append, hscheme, List.append_assoc, List.singleton_append] at hclean
  rw [addressOf_none, Url.Hierarchical, hclean]
  exact ⟨"https", _, Url.Parser.scheme?_append (by decide) (by decide) (by decide),
    .inl (by decide)⟩

end Own

-- What is settled once a configuration has been read and an endpoint made of it. The timeouts are in
-- order. There is a key unless it was nothing but blanks, and all URLs can be built or none: those of
-- the account's own address always can, those of a given one if its path has segments.
theorem startUp_settles {document : Bytes} (hc : Configuration.ofDocument document = .ok c)
    (he : Endpoint.new c override now = .ok e) :
    (∃ policy, c.signPolicy = .ok policy ∧ policy.read = .ofSeconds c.getTimeout ∧
      policy.write = .ofSeconds c.putTimeout ∧ 0 < policy.read.nanos ∧
      policy.read.nanos < policy.write.nanos) ∧
    (e.credential.key ≠ [] ↔ ∃ char ∈ c.accountKey.toList, Text.isBlank char = false) ∧
    ((∃ url, e.containerUrl = .ok url) ↔ Url.Hierarchical (addressOf c override)) ∧
    (∀ key, key ≠ "" → "." ∉ Text.split '/' key → ".." ∉ Text.split '/' key →
      ((∃ url, e.blobUrl key = .ok url) ↔ Url.Hierarchical (addressOf c override))) ∧
    (override = none → Url.Hierarchical (addressOf c override)) := by
  obtain ⟨-, -, -, policy, hpolicy⟩ := Configuration.checked_of_ofDocument hc
  obtain ⟨hread, hwrite, -⟩ := SignPolicy.new_inv hpolicy
  obtain ⟨-, hbase, -⟩ := of_new he
  have hpath := Url.hierarchical_iff_of_parse hbase
  refine ⟨⟨policy, hpolicy, hread, hwrite, policy.read_pos, policy.read_lt_write⟩,
    key_ne_nil_iff he, containerUrl_iff.trans hpath.symm, fun key hkey hsingle hdouble => ?_, ?_⟩
  · have hdots : hasDotSegment key = false := by
      rw [← Bool.not_eq_true, hasDotSegment_iff, not_or]
      exact ⟨hsingle, hdouble⟩
    exact (blobUrl_iff hkey hdots).trans hpath.symm
  · rintro rfl
    exact hierarchical_own c

section Sample

def localDocument : Bytes := Text.utf8 "[\"account\", \"AQID\", \"releases\"]"

theorem localDocument_read :
    Configuration.ofDocument localDocument = .ok localConfiguration :=
  ok_of_toOption (by decide +kernel)

theorem localConfiguration_credential :
    SharedKey.Credential.new localConfiguration.accountName localConfiguration.accountKey =
      .ok localService.credential :=
  SharedKey.Credential.new_eq (by decide) (by decide +kernel)

theorem startUp_settles_local :
    (Configuration.ofDocument localDocument = .ok localConfiguration ∧
      Endpoint.new localConfiguration (some localService.address) localService.now =
        .ok localService) ∧
    localService.credential.key ≠ [] ∧ (∃ url, localService.containerUrl = .ok url) ∧
      ∃ url, localService.blobUrl "a//b" = .ok url := by
  have he : Endpoint.new localConfiguration (some localService.address) localService.now =
      .ok localService :=
    new_eq _ localConfiguration_credential localConfiguration_address localService_base
  have hpath : Url.Hierarchical (addressOf localConfiguration (some localService.address)) :=
    ⟨"http", "//blob.local".toList, by decide +kernel, .inl (by decide)⟩
  obtain ⟨-, hkey, hcontainer, hblob, -⟩ := startUp_settles localDocument_read he
  refine ⟨⟨localDocument_read, he⟩, hkey.mpr ⟨'A', by decide, by decide⟩, hcontainer.mpr hpath, ?_⟩
  exact (hblob "a//b" (by decide) (by decide +kernel) (by decide +kernel)).mpr hpath

-- The same account with a key of one blank.
def blankConfiguration : Configuration := { localConfiguration with accountKey := " " }

-- An address without segments lets no URL be built at all, and of a blank there is no key.
theorem startUp_leaves_open :
    (Configuration.ofDocument localDocument = .ok localConfiguration ∧
      ∃ e, Endpoint.new localConfiguration (some "foo:bar") localService.now = .ok e ∧
        e.containerUrl = .error (.invalidInput "foo:bar is not a base URL") ∧
        ∀ key, ∃ failure, e.blobUrl key = .error failure) ∧
    Configuration.ofDocument (Text.utf8 "[\"account\", \" \", \"releases\"]") =
      .ok blankConfiguration ∧
      ∃ e, Endpoint.new blankConfiguration (some localService.address) localService.now = .ok e ∧
        e.credential.key = [] := by
  have haddress : addressOf localConfiguration (some "foo:bar") = "foo:bar" := by decide +kernel
  have hbase : Url.parse "foo:bar" = .ok ⟨"foo", none, .plain "bar", none, none⟩ := by
    decide +kernel
  have hblank : SharedKey.Credential.new blankConfiguration.accountName
      blankConfiguration.accountKey = .ok ⟨"account", []⟩ :=
    SharedKey.Credential.new_eq (by decide) (by decide +kernel)
  refine ⟨⟨localDocument_read, _, new_eq _ localConfiguration_credential haddress hbase, rfl, ?_⟩,
    ok_of_toOption (by decide +kernel), _,
    new_eq _ hblank localConfiguration_address localService_base, rfl⟩
  intro key
  cases hurl : blobUrl _ key with
  | error failure => exact ⟨failure, rfl⟩
  | ok url =>
    obtain ⟨container, hcontainer, -⟩ := extend?_of_blobUrl hurl
    exact nomatch hcontainer

end Sample

end Service.Endpoint

end BlobStorage
