import BlobStorage.Program
import BlobStorage.Proofs.Service.Upload
import BlobStorage.Proofs.Url.Web

-- What the answers of the service are told as: absence, refusals and the unknown are kept apart,
-- from the operations up to the exit status.
namespace BlobStorage

namespace Backend

-- The key that the failures of a call name.
def Call.key : Call → String
  | .upload key _ => key
  | .download key => key
  | .remove key => key
  | .properties key => key
  | .signedUrl key _ _ => key
  | .page under _ => under.getD ""
  | .copy source _ => source

-- The statuses that a call takes for success.
def Call.accepts (status : Nat) : Call → Prop
  | .upload .. => status = 201
  | .download _ => status = 200
  | .properties _ => status = 200
  | .page .. => status = 200
  | .remove _ => 200 ≤ status ∧ status < 300
  | .copy .. => 200 ≤ status ∧ status < 300
  | .signedUrl .. => True

end Backend

theorem Reply.andThen_result {σ α β : Type} (reply : Reply σ α) (next : α → σ → Reply σ β) :
    (reply.andThen next).result = reply.result.bind fun a => (next a reply.store).result := by
  unfold Reply.andThen
  split
  · rename_i h
    rw [h]
    rfl
  · rename_i h
    rw [h]
    rfl

theorem Http.Status.isSuccess_iff (status : Nat) :
    Status.isSuccess status = true ↔ 200 ≤ status ∧ status < 300 := by
  rw [Status.isSuccess, Bool.and_eq_true, decide_eq_true_iff, decide_eq_true_iff]

-- What the command for existence ends with.
def Existence.outcome : Existence → Except Failure Outcome
  | .present => .ok .success
  | .absent => .ok .notFound
  | .unknown failure => .error failure

namespace Client

variable {σ : Type} (c : Client σ) (key : String) (s : Session σ)

end Client

theorem SharedKey.Credential.new_eq {account encodedKey : String} {key : Bytes}
    (haccount : account ≠ "")
    (hkey : Base64.decode (Text.utf8 (Text.trim encodedKey)) = .ok key) :
    SharedKey.Credential.new account encodedKey = .ok ⟨account, key⟩ := by
  rw [SharedKey.Credential.new, if_neg haccount, hkey]

theorem Service.Endpoint.new_eq {c : Configuration} {override : Option String}
    {credential : SharedKey.Credential} {address : String} {base : Url} (now : Instant)
    (hcredential : SharedKey.Credential.new c.accountName c.accountKey = .ok credential)
    (haddress : Service.addressOf c override = address) (hbase : Url.parse address = .ok base) :
    Service.Endpoint.new c override now = .ok ⟨credential, address, base, c.containerName, now⟩ := by
  simp only [Service.Endpoint.new, hcredential, haddress, hbase, bind, Except.bind]

theorem Program.clientOf_eq {c : Configuration} {around : Surroundings} {e : Service.Endpoint}
    {policy : SignPolicy} (he : Service.Endpoint.new c around.address around.now = .ok e)
    (hpolicy : c.signPolicy = .ok policy) :
    Program.clientOf c around = .ok ⟨Service.backend e, policy⟩ := by
  rw [clientOf, he, hpolicy]
  rfl

-- The exit status that a command's end stands for.
def Program.statusOf : Except Failure Outcome → Nat
  | .ok outcome => outcome.exitCode
  | .error _ => 1

namespace Service

open Http

open Backend (Call)

-- The request that a call starts with.
inductive Opens (e : Endpoint) : Call → Request → Prop
  | upload {key : String} {url : Url} (h : e.blobUrl key = .ok url) (content : Bytes) :
    Opens e (.upload key (.ok content)) (uploadRequest url content)
  | download {key : String} {url : Url} (h : e.blobUrl key = .ok url) :
    Opens e (.download key) (getRequest url)
  | remove {key : String} {url : Url} (h : e.blobUrl key = .ok url) :
    Opens e (.remove key) (removeRequest url)
  | properties {key : String} {url : Url} (h : e.blobUrl key = .ok url) :
    Opens e (.properties key) (headRequest url)
  | page {url : Url} (h : e.containerUrl = .ok url) (under marker : Option String) :
    Opens e (.page under marker) (getRequest (url.appendQuery (listingQuery under marker)))
  | copy {source dest : String} {url destUrl : Url} (h : e.blobUrl source = .ok url)
    (hdest : e.blobUrl dest = .ok destUrl) : Opens e (.copy source dest) (copyRequest url destUrl)

-- What a failure says about an answer with a status and a code.
structure Tells (e : Endpoint) (key : String) (status : Nat) (code : String) (failure : Failure) :
    Prop where
  containerNotFound : failure = .containerNotFound e.container ↔
    status = 404 ∧ code = "ContainerNotFound"
  blobNotFound : failure = .blobNotFound key ↔ status = 404 ∧ code ≠ "ContainerNotFound"
  badRequest : (∃ text, failure = .badRequest text) ↔ status = 400
  forbidden : (∃ text, failure = .forbidden text) ↔ status = 403
  conflict : (∃ text, failure = .conflict text) ↔ status = 409
  unknown : failure = .ofStatus status ↔ status ∉ [400, 403, 404, 409]

theorem classify_tells (e : Endpoint) (key : String) (status : Nat) (code message : String) :
    Tells e key status code (classify e key status code message) := by
  unfold classify
  split_ifs with hmissing hcode hbad hforbidden hconflict <;>
    simp only [Status.notFound, Status.badRequest, Status.forbidden, Status.conflict] at *
  · constructor <;> simp [Failure.ofStatus, hmissing, hcode]
  · constructor <;> simp [Failure.ofStatus, hmissing, hcode]
  · constructor <;> simp [Failure.ofStatus, hbad]
  · constructor <;> simp [Failure.ofStatus, hforbidden]
  · constructor <;> simp [Failure.ofStatus, hconflict]
  · constructor <;> simp [Failure.ofStatus, hmissing, hbad, hforbidden, hconflict]

theorem refusal_tells (e : Endpoint) (method key : String) (r : Response) :
    Tells e key r.status (codeOf method r) (refusal e method key r) :=
  classify_tells e key r.status (codeOf method r) _

variable {e : Endpoint} {wire : Wire} {call : Call} {draft : Request} {r : Response}

section Results

variable {key : String} {url : Url} (hurl : e.blobUrl key = .ok url)
include hurl

theorem properties_result (hsent : (send e (headRequest url) wire).result = .ok r) :
    (properties e wire key).result =
      if r.status = Status.ok then propertiesOf r else .error (refusal e "HEAD" key r) := by
  rw [properties, withBlob, hurl]
  simp only [Reply.noting, Reply.andThen_result, hsent, Except.bind]
  split
  · cases propertiesOf r <;> rfl
  · rfl

theorem properties_store :
    (properties e wire key).store = (send e (headRequest url) wire).store := by
  rw [properties, withBlob, hurl]
  simp only [Reply.noting, Reply.andThen]
  split
  · rfl
  · split
    · rw [given_answers]
    · rfl

end Results

-- An endpoint of the web whose requests are received, and the answers that are ready for them.
structure Serving (e : Endpoint) (wire : Wire) (answers : List Answer) : Prop where
  base : Url.Web e.base
  account : Headers.isSendable e.credential.account = true
  listening : wire.listening = true
  answers : wire.answers = answers

theorem Opens.web (h : Opens e call draft) (hbase : Url.Web e.base) : Url.Web draft.url := by
  cases h with
  | upload h content => exact Endpoint.web_blobUrl hbase h
  | download h => exact Endpoint.web_blobUrl hbase h
  | remove h => exact Endpoint.web_blobUrl hbase h
  | properties h => exact Endpoint.web_blobUrl hbase h
  | page h under marker => exact (Endpoint.web_containerUrl hbase h).queried _
  | copy h hdest => exact Endpoint.web_blobUrl hbase hdest

theorem Serving.reachable {answers : List Answer} (h : Serving e wire answers) {url : Url}
    (hurl : Url.Web url) : Reachable e url wire :=
  ⟨hurl.hasHost, h.account, hurl.target.canSend, h.listening⟩

section Outcomes

-- The blob is there, as far as the answer to a request for its properties tells.
def Present (r : Response) : Prop := r.status = 200 ∧ ∃ found, propertiesOf r = .ok found

-- It is not, but its container is.
def Absent (r : Response) : Prop :=
  r.status = 404 ∧ r.headers.text? "x-ms-error-code" ≠ some "ContainerNotFound"

theorem not_present_of_absent (h : Absent r) : ¬Present r := fun hpresent =>
  absurd (h.1.symm.trans hpresent.1) (by decide)

-- An answer shows whether the blob is there, whether it is not, or neither.
inductive Shows (r : Response) : Existence → Prop
  | absent (h : Absent r) : Shows r .absent
  | present (h : Present r) : Shows r .present
  | unknown (failure : Failure) (habsent : ¬Absent r) (hpresent : ¬Present r) :
    Shows r (.unknown failure)

-- The blob's copy is not finished.
def Pending (r : Response) : Prop :=
  r.status = 200 ∧ ∃ found, propertiesOf r = .ok found ∧ found.copyStatus = some .pending

theorem numberHeader?_error {name : String} {failure : Failure}
    (h : numberHeader? r name = .error failure) : ∃ text, failure = .malformedResponse text := by
  unfold numberHeader? at h
  split at h
  · exact nomatch h
  · split at h
    · exact nomatch h
    · exact ⟨_, (Except.error.inj h).symm⟩

theorem propertiesOf_malformed {failure : Failure} (h : propertiesOf r = .error failure) :
    ∃ text, failure = .malformedResponse text := by
  unfold propertiesOf at h
  cases hsize : numberHeader? r "content-length" with
  | error problem =>
    rw [hsize] at h
    obtain rfl : problem = failure := Except.error.inj h
    exact numberHeader?_error hsize
  | ok size =>
    cases hmd5 : checksumHeader? r with
    | error problem =>
      rw [hsize, hmd5] at h
      obtain rfl : problem = failure := Except.error.inj h
      exact checksumHeader?_error hmd5
    | ok md5 =>
      rw [hsize, hmd5] at h
      exact nomatch h

section Serving

variable {answers : List Answer} (hserving : Serving e wire (.response r :: answers))
include hserving

theorem Serving.keeps (hkept : wire.redirects.next? (request e draft) r = none) :
    wire.Keeps (request e draft) := by
  intro answer hanswer
  rw [hserving.answers] at hanswer
  cases hanswer
  exact hkept

theorem Serving.behind (h : Opens e call draft)
    (hkept : wire.redirects.next? (request e draft) r = none) :
    Serving e (send e draft wire).store answers ∧
      (send e draft wire).store.redirects = wire.redirects := by
  rw [send_eq (hserving.reachable (h.web hserving.base)), (hserving.keeps hkept).behind,
    hserving.answers]
  exact ⟨⟨hserving.base, hserving.account, hserving.listening, rfl⟩, rfl⟩

variable {key : String} (policy : SignPolicy) (files : Files) (events : List Event)

end Serving

end Outcomes

-- How absence and presence show in the result of asking for a blob and in that of the command.
structure Told (r : Response) (existence : Existence) (outcome : Except Failure Outcome) : Prop where
  absent : existence = .absent ↔ Absent r
  present : existence = .present ↔ Present r
  notFound : outcome = .ok .notFound ↔ Absent r
  success : outcome = .ok .success ↔ Present r

-- How they show in the exit status of the program.
structure ToldStatus (r : Response) (status : Nat) : Prop where
  absent : status = 3 ↔ Absent r
  present : status = 0 ↔ Present r
  unknown : status = 1 ↔ ¬Absent r ∧ ¬Present r

theorem Shows.told {existence : Existence} (h : Shows r existence) :
    Told r existence existence.outcome := by
  cases h with
  | absent habsent =>
    have hpresent := not_present_of_absent habsent
    constructor <;> simp [habsent, hpresent, Existence.outcome]
  | present hpresent =>
    have habsent : ¬Absent r := fun habsent => not_present_of_absent habsent hpresent
    constructor <;> simp [habsent, hpresent, Existence.outcome]
  | unknown failure habsent hpresent =>
    constructor <;> simp [habsent, hpresent, Existence.outcome]

-- The status tells no less than the result of the command.
theorem Told.status {existence : Existence} {outcome : Except Failure Outcome}
    (h : Told r existence outcome) : ToldStatus r (Program.statusOf outcome) := by
  obtain ⟨-, -, hnotFound, hsuccess⟩ := h
  match outcome with
  | .ok .success | .ok .notFound | .error failure =>
    constructor <;> simp [← hnotFound, ← hsuccess, Program.statusOf, Outcome.exitCode]

section Sample

open Endpoint

-- The configuration of the local service, as it may be written in a file.
def localConfiguration : Configuration where
  accountName := "account"
  accountKey := "AQID"
  containerName := "releases"
  environment := .worldwide
  getTimeout := 1800
  putTimeout := 2700

def localFiles : Files :=
  ⟨[(["conf"], .file (Text.utf8 "[\"account\", \"AQID\", \"releases\"]"))]⟩

theorem ok_of_toOption {α : Type} {x : Except Failure α} {a : α} (h : x.toOption = some a) :
    x = .ok a := by
  cases x with
  | error failure => exact nomatch h
  | ok b => rw [Option.some.inj h]

theorem localConfiguration_address :
    addressOf localConfiguration (some localService.address) = localService.address := by
  decide +kernel

theorem localConfiguration_client (files : Files) (wire : Wire) :
    Program.clientOf localConfiguration
      ⟨some localService.address, localService.now, files, wire⟩ =
        .ok ⟨backend localService, .standard⟩ :=
  Program.clientOf_eq
    (Endpoint.new_eq _ (SharedKey.Credential.new_eq (by decide) (by decide +kernel))
      localConfiguration_address localService_base)
    rfl

-- A local service that is ready to answer.
def ready (answers : List Answer) : Wire := ⟨true, answers, [], .absolute⟩

def missing : Response := ⟨404, [("x-ms-error-code", "BlobNotFound")], []⟩

def copying (status : Nat) : Response := ⟨status, [("x-ms-copy-status", "pending")], []⟩

end Sample

end Service

end BlobStorage
