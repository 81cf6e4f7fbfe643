import BlobStorage.Proofs.Url.Reading
import BlobStorage.Service.Wire

-- Web addresses, and what holds of all of them: they read back, have a path and a host, and requests
-- for them can be sent.
namespace BlobStorage.Url

-- How addresses of the web come about.
inductive Web : Url → Prop
  | read {s : String} {url : Url} (h : parse s = .ok url)
    (hscheme : url.scheme = "http" ∨ url.scheme = "https") : Web url
  | extended {url more : Url} {change : List String → List String} {added : List String}
    (h : Web url) (hchange : change = id ∨ change = Path.popEmpty)
    (hmore : url.extend? change added = some more) : Web more
  | queried {url : Url} (h : Web url) (pairs : List (String × String)) : Web (url.appendQuery pairs)
  | target {url : Url} (h : Web url) : Web url.target

section Segments

theorem Path.addParsed_ne_nil (segments : List String) (raw : List Char) :
    Path.addParsed segments raw true ≠ [] := by
  unfold Path.addParsed
  split
  · simp
  · split <;> simp

theorem Path.ofParts_ne_nil {parts : List (List Char)} (h : parts ≠ []) (segments : List String) :
    Path.ofParts segments parts ≠ [] := by
  induction segments, parts using Path.ofParts.induct with
  | case1 segments => exact absurd rfl h
  | case2 segments raw => exact Path.addParsed_ne_nil segments raw
  | case3 segments raw rest hrest ih =>
    rw [Path.ofParts.eq_3 _ _ _ hrest]
    exact ih hrest

theorem Parser.segments_ne_nil (cs : List Char) : Parser.segments true cs ≠ [] := by
  unfold Parser.segments
  split
  · exact List.cons_ne_nil _ _
  · exact Path.ofParts_ne_nil (Text.splitOn_ne_nil _ _) _

theorem Path.popEmpty_ne_nil {segments : List String} (h : segments ≠ []) :
    Path.popEmpty segments ≠ [] := by
  unfold Path.popEmpty
  split
  · rename_i hlong
    rw [← List.length_pos_iff, List.length_dropLast]
    omega
  · exact h

theorem Path.push_ne_nil (special : Bool) {segments : List String} (h : segments ≠ [])
    (segment : String) : Path.push special segments segment ≠ [] := by
  unfold Path.push
  split
  · exact h
  · simp only
    split
    · simp
    · split <;> simp

theorem Path.foldl_push_ne_nil (special : Bool) (added : List String) {segments : List String}
    (h : segments ≠ []) : added.foldl (Path.push special) segments ≠ [] := by
  induction added generalizing segments with
  | nil => exact h
  | cons segment added ih => exact ih (Path.push_ne_nil special h segment)

end Segments

theorem Readable.target {url : Url} (h : url.Readable) : url.target.Readable := by
  obtain ⟨a, ha, hreadable⟩ := h.authority
  refine ⟨h.scheme, ⟨{ a with username := "", password := "" }, ?_, ?_⟩, h.path, h.query, ?_⟩
  · simp only [Url.target, ha, Option.map_some]
  · exact ⟨fun c hc => absurd hc List.not_mem_nil, fun c hc => absurd hc List.not_mem_nil,
      hreadable.host, hreadable.port⟩
  · exact fun c hc => absurd hc List.not_mem_nil

namespace Web

variable {url : Url}

theorem readable (h : Web url) : url.Readable := by
  induction h with
  | read h hscheme => exact readable_of_parse h hscheme
  | extended h hchange hmore ih =>
    refine Readable.extend? hmore ih fun parts hparts => ?_
    rcases hchange with rfl | rfl
    · exact hparts
    · exact hparts.popEmpty
  | queried h pairs ih => exact ih.appendQuery pairs
  | target h ih => exact ih.target

theorem segments (h : Web url) : ∃ parts, url.path = .segments parts ∧ parts ≠ [] := by
  induction h with
  | read h hscheme =>
    obtain ⟨cs, hcs⟩ := withAuthority_of_parse h hscheme
    obtain ⟨a, left, written, behind, path, rest, -, hurl⟩ := Parser.withAuthority_inv hcs
    rw [(readable_of_parse h hscheme).special] at hurl
    exact ⟨_, by rw [hurl], Parser.segments_ne_nil path⟩
  | extended h hchange hmore ih =>
    obtain ⟨parts, hparts, rfl⟩ := extend?_parts hmore
    obtain ⟨front, hfront, hne⟩ := ih
    rw [hparts] at hfront
    cases hfront
    refine ⟨_, rfl, Path.foldl_push_ne_nil _ _ ?_⟩
    rcases hchange with rfl | rfl
    · exact hne
    · exact Path.popEmpty_ne_nil hne
  | queried h pairs ih => exact ih
  | target h ih => exact ih

theorem hasHost (h : Web url) : Service.hasHost url = true := by
  obtain ⟨a, ha, hreadable⟩ := h.readable.authority
  obtain ⟨again, hagain⟩ := hreadable.host.reads
  have hne : a.host ≠ .name "" := by
    intro hempty
    rw [hempty] at hagain
    exact nomatch hagain
  simpa only [Service.hasHost, ha, decide_eq_true_iff] using hne

theorem canSend (h : Web url) : Service.canSend url = true := by
  rcases h.readable.scheme with hscheme | hscheme <;> rw [Service.canSend, hscheme] <;> rfl

end Web

end BlobStorage.Url

namespace BlobStorage.Service.Endpoint

variable {e : Endpoint} {url : Url}

-- What an endpoint was made of.
theorem of_new {c : Configuration} {override : Option String} {now : Instant}
    (h : new c override now = .ok e) :
    SharedKey.Credential.new c.accountName c.accountKey = .ok e.credential ∧
      Url.parse (addressOf c override) = .ok e.base ∧ e.address = addressOf c override ∧
      e.container = c.containerName := by
  unfold new at h
  cases hcredential : SharedKey.Credential.new c.accountName c.accountKey with
  | error failure =>
    rw [hcredential] at h
    exact nomatch h
  | ok credential =>
    rw [hcredential] at h
    cases hbase : Url.parse (addressOf c override) with
    | error problem =>
      simp only [bind, Except.bind, hbase] at h
      exact nomatch h
    | ok base =>
      simp only [bind, Except.bind, hbase] at h
      cases h
      exact ⟨rfl, rfl, rfl, rfl⟩

theorem extend?_of_containerUrl (h : e.containerUrl = .ok url) :
    e.base.extend? Url.Path.popEmpty [e.container] = some url := by
  unfold containerUrl at h
  split at h
  · rename_i more hmore
    rw [hmore, Except.ok.inj h]
  · exact nomatch h

theorem extend?_of_blobUrl {key : String} (h : e.blobUrl key = .ok url) :
    ∃ container, e.containerUrl = .ok container ∧
      container.extend? id (Text.split '/' key) = some url := by
  unfold blobUrl at h
  split at h
  · exact nomatch h
  split at h
  · exact nomatch h
  cases hcontainer : e.containerUrl with
  | error failure =>
    rw [hcontainer] at h
    exact nomatch h
  | ok container =>
    simp only [hcontainer, bind, Except.bind] at h
    split at h
    · rename_i more hmore
      exact ⟨container, rfl, by rw [hmore, Except.ok.inj h]⟩
    · exact nomatch h

theorem web_containerUrl (hbase : Url.Web e.base) (h : e.containerUrl = .ok url) : Url.Web url :=
  .extended hbase (.inr rfl) (extend?_of_containerUrl h)

theorem web_blobUrl (hbase : Url.Web e.base) {key : String} (h : e.blobUrl key = .ok url) :
    Url.Web url := by
  obtain ⟨container, hcontainer, hblob⟩ := extend?_of_blobUrl h
  exact .extended (web_containerUrl hbase hcontainer) (.inl rfl) hblob

end BlobStorage.Service.Endpoint
