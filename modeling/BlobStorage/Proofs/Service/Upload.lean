import BlobStorage.Proofs.Client.Put
import BlobStorage.Proofs.Service.Addressing
import BlobStorage.Proofs.Service.Wire
import BlobStorage.Service.Operations

-- Uploads to the service: which requests it receives, and when it confirms what was uploaded.
namespace BlobStorage

namespace Service

variable {e : Endpoint} {wire : Wire}

-- An answer whose checksum can be read, or that has none.
def Readable (r : Http.Response) : Prop :=
  ∀ value, r.headers.text? "content-md5" = some value → ∃ bytes, value = Base64.encodeText bytes

theorem checksumHeader?_some {r : Http.Response} {bytes : Bytes} :
    checksumHeader? r = .ok (some ⟨bytes⟩) ↔
      r.headers.text? "content-md5" = some (Base64.encodeText bytes) := by
  rw [checksumHeader?]
  cases r.headers.text? "content-md5" with
  | none => simp
  | some value =>
    rw [Option.some.injEq, ← Base64.decode_utf8_iff]
    cases hdecode : Base64.decode (Text.utf8 value) with
    | ok decoded => simp [hdecode]
    | error problem => simp [hdecode]

theorem readable_iff {r : Http.Response} :
    Readable r ↔ ∃ checksum, checksumHeader? r = .ok checksum := by
  constructor
  · intro h
    cases hvalue : r.headers.text? "content-md5" with
    | none =>
      rw [checksumHeader?, hvalue]
      exact ⟨none, rfl⟩
    | some value =>
      obtain ⟨bytes, rfl⟩ := h value hvalue
      exact ⟨some ⟨bytes⟩, checksumHeader?_some.mpr hvalue⟩
  · rintro ⟨checksum, h⟩ value hvalue
    cases hdecode : Base64.decode (Text.utf8 value) with
    | ok bytes => exact ⟨bytes, Base64.decode_utf8_iff.mp hdecode⟩
    | error problem =>
      rw [checksumHeader?, hvalue] at h
      simp only [hdecode] at h
      exact nomatch h

theorem checksumHeader?_error {r : Http.Response} {failure : Failure}
    (h : checksumHeader? r = .error failure) : ∃ text, failure = .malformedResponse text := by
  rw [checksumHeader?] at h
  split at h
  · exact nomatch h
  · split at h
    · exact nomatch h
    · exact ⟨_, (Except.error.inj h).symm⟩

-- The service accepts an upload, and what it reports first is the text of the content's checksum.
def Confirmed (e : Endpoint) (url : Url) (content : Bytes) (wire : Wire) : Prop :=
  ∃ r, (send e (uploadRequest url content) wire).result = .ok r ∧
    r.status = Http.Status.created ∧
    r.headers.first? "content-md5" = some (Base64.encodeText (Digest.Md5.digest content))

section Upload

variable {key : String} {url : Url} (hurl : e.blobUrl key = .ok url) {content : Bytes}
  {r : Http.Response}
include hurl

theorem upload_store :
    ((backend e).upload wire key (.ok content)).store =
      (send e (uploadRequest url content) wire).store := by
  show (upload e wire key (.ok content)).store = _
  rw [upload, withBlob, hurl]
  simp only [Reply.noting, Reply.andThen]
  split
  · rfl
  · split
    · rw [uploaded]
      split <;> rfl
    · rfl

-- An accepted upload gives the checksum in its answer, the empty one if there is none.
theorem upload_result (hsent : (send e (uploadRequest url content) wire).result = .ok r)
    (hstatus : r.status = Http.Status.created) :
    ((backend e).upload wire key (.ok content)).result =
      (checksumHeader? r).map fun checksum => checksum.getD Checksum.none := by
  show (upload e wire key (.ok content)).result = _
  rw [upload, withBlob, hurl]
  simp only [Reply.noting, Reply.andThen, hsent, hstatus, if_true, uploaded]
  cases checksumHeader? r with
  | error failure => rfl
  | ok checksum => cases checksum <;> rfl

theorem upload_rejected
    (h : ∀ r, (send e (uploadRequest url content) wire).result = .ok r →
      r.status ≠ Http.Status.created) :
    ∃ failure, ((backend e).upload wire key (.ok content)).result = .error failure := by
  show ∃ failure, (upload e wire key (.ok content)).result = .error failure
  rw [upload, withBlob, hurl]
  simp only [Reply.noting, Reply.andThen]
  cases hsent : (send e (uploadRequest url content) wire).result with
  | error failure => exact ⟨failure, rfl⟩
  | ok r =>
    simp only [if_neg (h r hsent)]
    exact ⟨_, rfl⟩

theorem upload_confirmed_iff :
    ((backend e).upload wire key (.ok content)).result = .ok (Checksum.compute content) ↔
      Confirmed e url content wire := by
  constructor
  · intro h
    by_cases haccepted : ∃ r, (send e (uploadRequest url content) wire).result = .ok r ∧
        r.status = Http.Status.created
    · obtain ⟨r, hsent, hstatus⟩ := haccepted
      refine ⟨r, hsent, hstatus, ?_⟩
      rw [upload_result hurl hsent hstatus] at h
      cases hheader : checksumHeader? r with
      | error failure =>
        rw [hheader] at h
        exact nomatch h
      | ok checksum =>
        rw [hheader, Except.map, Except.ok.injEq] at h
        cases checksum with
        | none => exact absurd h.symm (Checksum.compute_ne_none content)
        | some checksum =>
          rw [Option.getD_some] at h
          rw [h] at hheader
          exact (Option.filter_eq_some_iff.mp (checksumHeader?_some.mp hheader)).1
    · have hrejected : ∀ r, (send e (uploadRequest url content) wire).result = .ok r →
          r.status ≠ Http.Status.created :=
        fun r hsent hstatus => haccepted ⟨r, hsent, hstatus⟩
      obtain ⟨failure, hfailure⟩ := upload_rejected hurl hrejected
      rw [hfailure] at h
      exact nomatch h
  · rintro ⟨r, hsent, hstatus, hfirst⟩
    have htext : r.headers.text? "content-md5" =
        some (Base64.encodeText (Digest.Md5.digest content)) := by
      rw [Http.Headers.text?, hfirst, Option.filter_some, Base64.isText_encodeText]
      rfl
    rw [upload_result hurl hsent hstatus, checksumHeader?_some.mpr htext]
    rfl

theorem put_confirmed_iff (policy : SignPolicy) {path : String} {s : Session Wire}
    (hread : s.files.read path = .ok content) :
    (Client.put ⟨backend e, policy⟩ path key s).1 = .ok () ↔ Confirmed e url content s.store :=
  (Client.put_ok_iff (backend e) policy key s hread).trans (upload_confirmed_iff hurl)

theorem remove_store :
    ((backend e).remove wire key).store = (send e (removeRequest url) wire).store := by
  show (remove e wire key).store = _
  rw [remove, withBlob, hurl]
  simp only [Reply.noting, Reply.andThen]
  split
  · rfl
  · split <;> rfl

end Upload

section Put

variable {path key : String} {url : Url} {content : Bytes} {s : Session Wire} {r : Http.Response}
  (policy : SignPolicy) (hurl : e.blobUrl key = .ok url) (hread : s.files.read path = .ok content)
  (hsent : (send e (uploadRequest url content) s.store).result = .ok r)
  (hstatus : r.status = Http.Status.created)
include hurl hread hsent hstatus

theorem put_unreadable (h : ¬Readable r) :
    (∃ text, (Client.put ⟨backend e, policy⟩ path key s).1 = .error (.malformedResponse text)) ∧
      (Client.put ⟨backend e, policy⟩ path key s).2.store =
        s.store.behind (request e (uploadRequest url content)) := by
  cases hheader : checksumHeader? r with
  | ok checksum => exact absurd (readable_iff.mpr ⟨checksum, hheader⟩) h
  | error failure =>
    obtain ⟨text, rfl⟩ := checksumHeader?_error hheader
    have hresult := upload_result hurl hsent hstatus
    rw [hheader, Except.map] at hresult
    obtain ⟨hput, hstore, -⟩ := Client.put_of_failure (backend e) policy key s hread hresult
    refine ⟨⟨text, hput⟩, ?_⟩
    rw [hstore, upload_store hurl, send_eq (reachable_of_send hsent)]

theorem put_readable (h : Readable r)
    (hput : (Client.put ⟨backend e, policy⟩ path key s).1 ≠ .ok ()) :
    (Client.put ⟨backend e, policy⟩ path key s).2.store =
      (s.store.behind (request e (uploadRequest url content))).behind
        (request e (removeRequest url)) := by
  obtain ⟨checksum, hheader⟩ := readable_iff.mp h
  have hresult := upload_result hurl hsent hstatus
  rw [hheader, Except.map] at hresult
  have hne : checksum.getD Checksum.none ≠ Checksum.compute content := by
    intro heq
    rw [heq] at hresult
    exact hput (Client.put_of_same (backend e) policy key s hread hresult).1
  obtain ⟨-, hstore, -⟩ := Client.put_of_other (backend e) policy key s hread hresult hne
  have hreach : Reachable e url s.store := reachable_of_send hsent
  have hupload : (send e (uploadRequest url content) s.store).store =
      s.store.behind (request e (uploadRequest url content)) := by rw [send_eq hreach]
  have hremove : (send e (removeRequest url)
      (s.store.behind (request e (uploadRequest url content)))).store = _ :=
    congrArg Reply.store (send_eq (hreach.behind _))
  rw [hstore, upload_store hurl, remove_store hurl, hupload, hremove]

end Put

section Sample

open Endpoint

-- A file to put, and a service that accepts it with some text for its checksum.
def accepting (md5 : String) : Session Wire :=
  ⟨⟨true, [.response ⟨201, [("content-md5", md5)], []⟩, .response ⟨202, [], []⟩], [], .absolute⟩,
    ⟨[(["file"], .file [104, 105])]⟩, []⟩

def blobAddress : Url :=
  { localService.base with path := .segments ["releases", "blob"] }

theorem localService_blobUrl : localService.blobUrl "blob" = .ok blobAddress := rfl

theorem accepting_reachable (md5 : String) :
    Reachable localService blobAddress (accepting md5).store :=
  ⟨by decide +kernel, by decide +kernel, by decide +kernel, rfl⟩

theorem accepting_keeps (md5 : String) (request : Http.Request) :
    (accepting md5).store.Keeps request := keeps_of_status (by simp) rfl request

theorem accepting_sent (md5 : String) :
    (send localService (uploadRequest blobAddress [104, 105]) (accepting md5).store).result =
      .ok ⟨201, [("content-md5", md5)], []⟩ :=
  send_answered (accepting_reachable md5) rfl
    (accepting_keeps md5 _ _ rfl)

theorem accepting_read (md5 : String) : (accepting md5).files.read "file" = .ok [104, 105] := by
  have hread : Files.read ⟨[(["file"], .file [104, 105])]⟩ "file" = .ok [104, 105] := by
    decide +kernel
  exact hread

theorem accepting_not_ok (md5 : String)
    (h : md5 ≠ Base64.encodeText (Digest.Md5.digest [104, 105])) :
    (Client.put ⟨backend localService, .standard⟩ "file" "blob" (accepting md5)).1 ≠ .ok () := by
  intro hput
  obtain ⟨r, hsent, -, hfirst⟩ :=
    (put_confirmed_iff localService_blobUrl .standard (accepting_read md5)).mp hput
  rw [accepting_sent, Except.ok.injEq] at hsent
  subst hsent
  exact h (Option.some.inj hfirst)

-- An accepted upload that was not confirmed is deleted again, unless its answer has a checksum that
-- cannot be read; then it stays. Redirects may make more of either request.
theorem put_takes_back {e : Endpoint} {path key : String} {url : Url} {content : Bytes}
    {s : Session Wire} {r : Http.Response} (policy : SignPolicy) (hurl : e.blobUrl key = .ok url)
    (hread : s.files.read path = .ok content)
    (hsent : (send e (uploadRequest url content) s.store).result = .ok r)
    (hstatus : r.status = Http.Status.created)
    (hput : (Client.put ⟨backend e, policy⟩ path key s).1 ≠ .ok ()) :
    ∃ (upload removal : Http.Request) (uploads removals : List Http.Request),
      (upload.method = "PUT" ∧ upload.url = url.target) ∧
      (removal.method = "DELETE" ∧ removal.url = upload.url) ∧
      (Http.Onward s.store.redirects upload uploads ∧ (s.store.Keeps upload → uploads = [])) ∧
      (Http.Onward s.store.redirects removal removals ∧
        ((s.store.behind upload).Keeps removal → removals = [])) ∧
      (Readable r → (Client.put ⟨backend e, policy⟩ path key s).2.store.received =
        s.store.received ++ upload :: uploads ++ removal :: removals) ∧
      (¬Readable r → (Client.put ⟨backend e, policy⟩ path key s).2.store.received =
          s.store.received ++ upload :: uploads ∧
        ∃ text, (Client.put ⟨backend e, policy⟩ path key s).1 =
          .error (.malformedResponse text)) := by
  refine ⟨request e (uploadRequest url content), request e (removeRequest url),
    (s.store.course (request e (uploadRequest url content))).onward,
    ((s.store.behind (request e (uploadRequest url content))).course
      (request e (removeRequest url))).onward, ⟨rfl, rfl⟩, ⟨rfl, rfl⟩,
    ⟨s.store.course_onward _, fun h => by rw [h.course]⟩,
    ⟨Wire.course_onward (s.store.behind _) _, fun h => by rw [h.course]⟩, fun h => ?_, fun h => ?_⟩
  · rw [put_readable policy hurl hread hsent hstatus h hput]
    rfl
  · obtain ⟨hfailure, hstore⟩ := put_unreadable policy hurl hread hsent hstatus h
    rw [hstore]
    exact ⟨rfl, hfailure⟩

theorem put_takes_back_other :
    ((send localService (uploadRequest blobAddress [104, 105]) (accepting "AAAA").store).result =
        .ok ⟨201, [("content-md5", "AAAA")], []⟩ ∧
      (Client.put ⟨backend localService, .standard⟩ "file" "blob" (accepting "AAAA")).1 ≠ .ok ()) ∧
    ∃ upload removal : Http.Request,
      (upload.method = "PUT" ∧ upload.url = blobAddress.target) ∧
      (removal.method = "DELETE" ∧ removal.url = upload.url) ∧
      (Client.put ⟨backend localService, .standard⟩ "file" "blob" (accepting "AAAA")).2.store.received =
        [upload, removal] := by
  have hput := accepting_not_ok "AAAA" (by decide +kernel)
  have hreadable : Readable ⟨201, [("content-md5", "AAAA")], []⟩ :=
    readable_iff.mpr ⟨some ⟨[0, 0, 0]⟩, checksumHeader?_some.mpr (by decide +kernel)⟩
  obtain ⟨upload, removal, uploads, removals, hupload, hremoval, ⟨-, huploads⟩, ⟨-, hremovals⟩,
    hreceived, -⟩ := put_takes_back .standard localService_blobUrl (accepting_read "AAAA")
      (accepting_sent "AAAA") rfl hput
  have hkept := accepting_keeps "AAAA" upload
  have hdeleted : ((accepting "AAAA").store.behind upload).Keeps removal := by
    rw [hkept.behind]
    exact keeps_of_status (by decide) rfl removal
  refine ⟨⟨accepting_sent "AAAA", hput⟩, upload, removal, hupload, hremoval, ?_⟩
  rw [hreceived hreadable, huploads hkept, hremovals hdeleted]
  rfl

-- An accepted upload that stays: nothing asks to delete it.
theorem put_leaves_upload :
    (send localService (uploadRequest blobAddress [104, 105]) (accepting "???").store).result =
        .ok ⟨201, [("content-md5", "???")], []⟩ ∧
    (Client.put ⟨backend localService, .standard⟩ "file" "blob" (accepting "???")).1 ≠ .ok () ∧
    (Client.put ⟨backend localService, .standard⟩ "file" "blob" (accepting "???")).2.store.received =
      [request localService (uploadRequest blobAddress [104, 105])] ∧
    (request localService (uploadRequest blobAddress [104, 105])).method = "PUT" := by
  have hunreadable : ¬Readable ⟨201, [("content-md5", "???")], []⟩ := by
    intro h
    obtain ⟨bytes, hbytes⟩ := h "???" (by decide +kernel)
    have hdecode := Base64.decode_utf8_iff.mpr hbytes
    have hbad : (Base64.decode (Text.utf8 "???")).isOk = false := by decide +kernel
    rw [hdecode] at hbad
    exact nomatch hbad
  obtain ⟨⟨text, hfailure⟩, hstore⟩ := put_unreadable .standard localService_blobUrl
    (accepting_read "???") (accepting_sent "???") rfl hunreadable
  refine ⟨accepting_sent "???", ?_, ?_, rfl⟩
  · rw [hfailure]
    exact nofun
  · rw [hstore, (accepting_keeps "???" _).behind]
    rfl

end Sample

end Service

-- How putting a file goes over any backend, what it leaves in memory, and when the service
-- confirms it.
theorem Client.put_outcomes (policy : SignPolicy) (path key : String) :
    (∀ (σ : Type) (b : Backend σ) (s : Session σ), PutTraced b policy path key s) ∧
    (∀ (settings : Memory.Settings) (now : Instant) (s : Session Memory.Store),
      Memory.PutOutcome settings now policy path key s) ∧
    ∀ (e : Service.Endpoint) (s : Session Service.Wire) (url : Url) (content : Bytes),
      e.blobUrl key = .ok url → s.files.read path = .ok content →
        (((Service.backend e).upload s.store key (.ok content)).result =
          .ok (Checksum.compute content) ↔ Service.Confirmed e url content s.store) ∧
        ((put ⟨Service.backend e, policy⟩ path key s).1 = .ok () ↔
          Service.Confirmed e url content s.store) := by
  refine ⟨fun σ b s => put_traced b policy path key s,
    fun settings now s => Memory.put_outcome settings now policy path key s, ?_⟩
  intro e s url content hurl hread
  exact ⟨Service.upload_confirmed_iff hurl, Service.put_confirmed_iff hurl policy hread⟩

end BlobStorage
