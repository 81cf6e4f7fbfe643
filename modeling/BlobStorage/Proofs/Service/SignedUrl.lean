import BlobStorage.Proofs.Client.Expiry
import BlobStorage.Proofs.Service.Addressing
import BlobStorage.Service.Operations

-- Signed URLs as their holders read them: every value arrives as it was signed.
namespace BlobStorage

namespace Client

-- What a signed URL is made of, over any backend.
theorem sign_eq {σ : Type} {c : Client σ} {key action text : String} {validity : Span}
    {s : Session σ} (h : (c.sign key action validity s).1 = .ok text) :
    ∃ intent url, SignAction.parse action = .ok intent ∧
      (c.backend.signedUrl s.store key intent.permissions (c.backend.now.after validity)).result =
        .ok url ∧
      text = (url.appendQuery [c.timeoutParameter intent]).text := by
  cases hintent : SignAction.parse action with
  | error failure =>
    rw [sign_of_unsupported key s hintent] at h
    exact nomatch h
  | ok intent =>
    cases hexpiry : expiry c.backend.now validity with
    | error failure =>
      rw [sign_of_unexpirable key s hintent hexpiry] at h
      exact nomatch h
    | ok t =>
      obtain ⟨hresult, -⟩ := sign_of_expiry key s hintent hexpiry
      obtain rfl := expiry_eq hexpiry
      rw [hresult] at h
      cases hurl : (c.backend.signedUrl s.store key intent.permissions
          (c.backend.now.after validity)).result with
      | error failure =>
        rw [hurl] at h
        exact nomatch h
      | ok url =>
        rw [hurl] at h
        exact ⟨intent, url, rfl, hurl, (Except.ok.inj h).symm⟩

end Client

namespace SignAction

variable {action : String} {intent : SignAction} (h : parse action = .ok intent)
include h

theorem eq_of_parse : intent = if Text.asciiLower action = "get" then .get else .put := by
  unfold parse at h
  split at h
  · rename_i hget
    rw [if_pos hget]
    exact (Except.ok.inj h).symm
  · rename_i hget
    split at h
    · rw [if_neg hget]
      exact (Except.ok.inj h).symm
    · exact nomatch h

theorem permissions_text :
    intent.permissions.text = if Text.asciiLower action = "get" then "r" else "rcw" := by
  rw [eq_of_parse h]
  split <;> rfl

theorem timeout_eq (policy : SignPolicy) :
    intent.timeout policy =
      if Text.asciiLower action = "get" then policy.read else policy.write := by
  rw [eq_of_parse h]
  split <;> rfl

end SignAction

namespace Service

theorem seconds_before_clockSkew (t : Instant) : (t.before clockSkew).seconds = t.seconds - 10 := by
  rw [Instant.seconds_eq, Instant.seconds_eq]
  simp only [Instant.before, clockSkew]
  omega

variable {e : Endpoint}

theorem blobUrl_readable (h : e.base.Readable) {key : String} {url : Url}
    (hurl : e.blobUrl key = .ok url) :
    url.Readable ∧ url.scheme = e.base.scheme ∧ url.query = e.base.query := by
  unfold Endpoint.blobUrl Endpoint.containerUrl at hurl
  split at hurl
  · exact nomatch hurl
  split at hurl
  · exact nomatch hurl
  cases hcontainer : e.base.extend? Url.Path.popEmpty [e.container] with
  | none =>
    simp only [hcontainer] at hurl
    exact nomatch hurl
  | some container =>
    cases hblob : container.extend? id (Text.split '/' key) with
    | none =>
      simp only [hcontainer, bind, Except.bind, hblob] at hurl
      exact nomatch hurl
    | some blob =>
      simp only [hcontainer, bind, Except.bind, hblob, Except.ok.injEq] at hurl
      subst hurl
      have hreadable := (h.extend? hcontainer fun _ hparts => hparts.popEmpty).extend? hblob
        fun _ hparts => hparts
      obtain ⟨_, _, hcontainerUrl⟩ := Url.extend?_parts hcontainer
      obtain ⟨_, _, hblobUrl⟩ := Url.extend?_parts hblob
      exact ⟨hreadable, by rw [hblobUrl, hcontainerUrl], by rw [hblobUrl, hcontainerUrl]⟩

theorem signedUrl_eq {wire : Wire} {key : String} {permissions : Permissions} {expiry : Instant}
    {signed : Url} (h : (signedUrl e wire key permissions expiry).result = .ok signed) :
    ∃ url, e.blobUrl key = .ok url ∧
      signed = url.appendQuery ((grant e url key permissions expiry).query e.credential) := by
  unfold signedUrl withBlob at h
  cases hurl : e.blobUrl key with
  | error failure =>
    rw [hurl] at h
    exact nomatch h
  | ok url =>
    rw [hurl] at h
    exact ⟨url, rfl, (Except.ok.inj h).symm⟩

theorem grant_protocol {url : Url} (hscheme : url.scheme = e.base.scheme) (key : String)
    (permissions : Permissions) (expiry : Instant) :
    (grant e url key permissions expiry).protocol =
      if e.base.scheme = "https" then "https" else "https,http" := by
  simp only [SharedKey.Grant.protocol, grant, hscheme, beq_iff_eq]

-- What a grant shows in a query, in the terms of those who asked for it.
theorem grant_query {url : Url} (hscheme : url.scheme = e.base.scheme) {action : String}
    {intent : SignAction} (hintent : SignAction.parse action = .ok intent) (key : String)
    (expiry : Instant) :
    (grant e url key intent.permissions expiry).query e.credential =
      [("sv", "2021-08-06"),
        ("st", (Instant.ofSeconds (e.now.seconds - 10)).stamp),
        ("se", (Instant.ofSeconds expiry.seconds).stamp),
        ("sr", "b"),
        ("sp", if Text.asciiLower action = "get" then "r" else "rcw"),
        ("spr", if e.base.scheme = "https" then "https" else "https,http"),
        ("sig", e.credential.sign ((grant e url key intent.permissions expiry).stringToSign
          e.credential.account))] := by
  rw [SharedKey.Grant.query, grant_protocol hscheme, ← SignAction.permissions_text hintent,
    ← seconds_before_clockSkew, Instant.stamp_ofSeconds, Instant.stamp_ofSeconds]
  rfl

-- The text that a service checks a signature against, from what a URL shows it.
def recomputed (account container key : String) (pairs : List (String × String)) : String :=
  let shown (name : String) : String := (pairs.lookup name).getD ""
  "\n".intercalate [shown "sp", shown "st", shown "se",
    "/blob/" ++ account ++ "/" ++ container ++ "/" ++ key, "", "", shown "spr", "2021-08-06", "b",
    "", "", "", "", "", "", ""]

theorem recomputed_query (credential : SharedKey.Credential) (grant : SharedKey.Grant)
    (rest : List (String × String)) :
    recomputed credential.account grant.container grant.blob (grant.query credential ++ rest) =
      grant.stringToSign credential.account := by
  simp [recomputed, SharedKey.Grant.query, SharedKey.Grant.stringToSign, SharedKey.Grant.lines,
    SharedKey.apiVersion, List.lookup]

-- Whoever reads a signed URL finds the grant and the timeout in its query, in order and as they are,
-- and the signature of the text that they stand for.
theorem sign_verifies (hbase : Url.parse e.address = .ok e.base)
    (hscheme : e.base.scheme = "http" ∨ e.base.scheme = "https") (hquery : e.base.query = none)
    {policy : SignPolicy} {key action text : String} {validity : Span} {s : Session Wire}
    (h : (Client.sign ⟨backend e, policy⟩ key action validity s).1 = .ok text) :
    ∃ url, Url.parse text = .ok url ∧
      url.queryPairs =
        [("sv", "2021-08-06"),
          ("st", (Instant.ofSeconds (e.now.seconds - 10)).stamp),
          ("se", (Instant.ofSeconds (e.now.after validity).seconds).stamp),
          ("sr", "b"),
          ("sp", if Text.asciiLower action = "get" then "r" else "rcw"),
          ("spr", if e.base.scheme = "https" then "https" else "https,http"),
          ("sig", e.credential.sign
            (recomputed e.credential.account e.container key url.queryPairs)),
          ("timeout", Nat.repr
            (if Text.asciiLower action = "get" then policy.read else policy.write).seconds)] := by
  obtain ⟨intent, signed, hintent, hsigned, rfl⟩ := Client.sign_eq h
  obtain ⟨blob, hblob, rfl⟩ := signedUrl_eq hsigned
  obtain ⟨hreadable, hblobScheme, hblobQuery⟩ :=
    blobUrl_readable (Url.readable_of_parse hbase hscheme) hblob
  obtain ⟨url, hurl, hsame⟩ := Url.Readable.parse_text
    ((hreadable.appendQuery _).appendQuery [Client.timeoutParameter ⟨backend e, policy⟩ intent])
  refine ⟨url, hurl, ?_⟩
  have hpairs : url.queryPairs =
      (grant e blob key intent.permissions (e.now.after validity)).query e.credential ++
        [Client.timeoutParameter ⟨backend e, policy⟩ intent] := by
    rw [Url.queryPairs, hsame, ← Url.queryPairs, Url.queryPairs_appendQuery,
      Url.queryPairs_appendQuery, Url.queryPairs, hblobQuery, hquery]
    rfl
  have hcovered : recomputed e.credential.account e.container key url.queryPairs =
      (grant e blob key intent.permissions (e.now.after validity)).stringToSign
        e.credential.account := by
    rw [hpairs]
    exact recomputed_query e.credential _ _
  rw [hcovered, hpairs, grant_query hblobScheme hintent, Client.timeoutParameter,
    SignAction.timeout_eq hintent]
  rfl

-- A put over a service without encryption.
theorem sign_verifies_put :
    (Url.parse Endpoint.localService.address = .ok Endpoint.localService.base ∧
      Endpoint.localService.base.scheme = "http" ∧ Endpoint.localService.base.query = none) ∧
    ∃ text url, (Client.sign ⟨backend Endpoint.localService, .standard⟩ "a blob" "Put"
        ⟨3600000000001⟩ ⟨⟨true, [], [], .absolute⟩, .empty, []⟩).1 = .ok text ∧
      Url.parse text = .ok url ∧
      (["st", "se", "sp", "spr", "timeout"].map fun name => url.queryPairs.lookup name) =
        [some "1969-12-31T23:59:50Z", some "1970-01-01T01:00:00Z", some "rcw", some "https,http",
          some "2700"] := by
  have hok : (Client.sign ⟨backend Endpoint.localService, .standard⟩ "a blob" "Put"
      ⟨3600000000001⟩ ⟨⟨true, [], [], .absolute⟩, .empty, []⟩).1.isOk = true := by decide +kernel
  refine ⟨⟨Endpoint.localService_base, rfl, rfl⟩, ?_⟩
  cases hsign : (Client.sign ⟨backend Endpoint.localService, .standard⟩ "a blob" "Put"
      ⟨3600000000001⟩ ⟨⟨true, [], [], .absolute⟩, .empty, []⟩).1 with
  | error failure =>
    rw [hsign] at hok
    exact nomatch hok
  | ok text =>
    obtain ⟨url, hurl, hpairs⟩ := sign_verifies Endpoint.localService_base (.inl rfl) rfl hsign
    refine ⟨text, url, rfl, hurl, ?_⟩
    rw [hpairs]
    rfl

end Service

end BlobStorage
