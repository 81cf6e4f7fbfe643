import BlobStorage.Proofs.Client.Likeness
import BlobStorage.Proofs.Service.Answered

-- The account's key shows in nothing but signatures. Whole sessions under two keys are compared.
namespace BlobStorage.Service

open Http

-- The value of an authorization up to its signature, which stands behind the last colon.
def unsigned (value : String) : String :=
  String.ofList (value.toList.reverse.dropWhile (· ≠ ':')).reverse

theorem unsigned_append {front signature : List Char} (h : ':' ∉ signature) :
    unsigned (String.ofList (front ++ ':' :: signature)) = String.ofList (front ++ [':']) := by
  rw [unsigned, String.toList_ofList, List.reverse_append, List.reverse_cons, List.append_assoc,
    Text.dropWhile_boundary]
  · rw [List.singleton_append, List.reverse_cons, List.reverse_reverse]
  · intro c hc
    have hne : c ≠ ':' := fun heq => h (heq ▸ List.mem_reverse.mp hc)
    simpa using hne
  · simp

-- A header without the signature, if it is an authorization.
def veil (header : String × String) : String × String :=
  (header.1, if header.1 = "authorization" then unsigned header.2 else header.2)

-- A request without the signature of its authorization.
def veiled (r : Request) : Request := { r with headers := r.headers.map veil }

-- Connections on which the same happened, but for signatures.
structure Wire.Like (w w' : Wire) : Prop where
  listening : w.listening = w'.listening
  answers : w.answers = w'.answers
  received : w.received.map veiled = w'.received.map veiled
  redirects : w.redirects = w'.redirects

section Veil

-- Redirects go the same ways for requests that are the same but for their signatures.
variable (r : Request)

theorem veiled_without (names : List String) : veiled (r.without names) = (veiled r).without names := by
  have hheaders : (r.headers.map veil).filter (fun header => !names.contains header.1) =
      (r.headers.filter fun header => !names.contains header.1).map veil := List.filter_map
  rw [veiled, veiled, Request.without, Request.without, hheaders]

theorem map_veil_set (headers : Headers) {name : String} (hname : name ≠ "authorization")
    (value : String) : (headers.set name value).map veil = Headers.set (headers.map veil) name value := by
  have hothers : (headers.map veil).filter (fun header => decide (header.1 ≠ name)) =
      (headers.filter fun header => decide (header.1 ≠ name)).map veil := List.filter_map
  rw [Headers.set, Headers.set, List.map_append, hothers, List.map_singleton, veil, if_neg hname]

theorem veiled_referring (next : Url) : veiled (r.referring next) = (veiled r).referring next := by
  have hheaders := map_veil_set r.headers (show "referer" ≠ "authorization" by decide) r.url.text
  by_cases hdown : r.url.scheme = "https" ∧ next.scheme = "http"
  · have hdown' : (veiled r).url.scheme = "https" ∧ next.scheme = "http" := hdown
    rw [Request.referring, if_pos hdown, Request.referring, if_pos hdown']
  · have hdown' : ¬((veiled r).url.scheme = "https" ∧ next.scheme = "http") := hdown
    rw [Request.referring, if_neg hdown, Request.referring, if_neg hdown', veiled, hheaders]
    rfl

theorem veiled_movedTo (next : Url) : veiled (r.movedTo next) = (veiled r).movedTo next := by
  have hreferring := veiled_referring r next
  by_cases hsite : next.site = r.url.site
  · have hsite' : next.site = (veiled r).url.site := hsite
    rw [Request.movedTo, if_pos hsite, Request.movedTo, if_pos hsite', ← hreferring]
    rfl
  · have hsite' : ¬next.site = (veiled r).url.site := hsite
    rw [Request.movedTo, if_neg hsite, Request.movedTo, if_neg hsite', ← hreferring,
      ← veiled_without]
    rfl

theorem onward?_veiled (status : Nat) :
    (veiled r).onward? status = (r.onward? status).map veiled := by
  have hwithout := veiled_without r Request.bodyHeaders
  unfold Request.onward?
  split
  · rw [← hwithout]
    rfl
  · split <;> rename_i hkept
    · rw [if_pos (show [307, 308].contains status = true ∧ r.body = none from hkept)]
      rfl
    · rw [if_neg (show ¬([307, 308].contains status = true ∧ r.body = none) from hkept)]
      rfl

theorem next?_veiled (redirects : Redirects) (answer : Response) :
    redirects.next? (veiled r) answer = (redirects.next? r answer).map veiled := by
  have hurl : (veiled r).url = r.url := rfl
  rw [Redirects.next?, Redirects.next?, onward?_veiled, hurl]
  cases r.onward? answer.status with
  | none => rfl
  | some onward =>
    cases (answer.headers.first? "location").bind (redirects.resolve r.url) with
    | none => rfl
    | some next => exact congrArg some (veiled_movedTo onward next).symm

theorem follow_veiled (redirects : Redirects) (hops : Nat) (r : Request) (answers : List Answer) :
    follow redirects hops (veiled r) answers =
      ⟨(follow redirects hops r answers).onward.map veiled,
        (follow redirects hops r answers).outcome⟩ := by
  induction answers generalizing hops r with
  | nil => rfl
  | cons answer rest ih =>
    cases answer with
    | dropped => rfl
    | response answer =>
      have hveiled := next?_veiled r redirects answer
      cases hnext : redirects.next? r answer with
      | none =>
        rw [hnext] at hveiled
        rw [follow_of_kept hnext, follow_of_kept hveiled]
        rfl
      | some next =>
        rw [hnext] at hveiled
        cases hops with
        | zero =>
          simp only [follow, hnext, hveiled, Option.map_some]
          rfl
        | succ hops =>
          have hurl : (veiled next).url = next.url := rfl
          simp only [follow, hnext, hveiled, Option.map_some, hurl, ih]
          split <;> rfl

end Veil

-- The same endpoint under another key.
def Endpoint.withKey (e : Endpoint) (key : Bytes) : Endpoint :=
  { e with credential := { e.credential with key := key } }

theorem colon_not_mem_sign (credential : SharedKey.Credential) (text : String) :
    ':' ∉ (credential.sign text).toList := by
  have hsymbol : ∀ n < 64, Char.ofNat (Base64.symbol n).toNat ≠ ':' := by decide
  rw [SharedKey.Credential.sign, Base64.encodeText, String.toList_ofList, List.mem_map]
  rintro ⟨b, hb, hcolon⟩
  rcases Base64.mem_encode hb with rfl | ⟨v, hv, rfl⟩
  · exact absurd hcolon (by decide)
  · exact hsymbol v hv hcolon

section Send

variable (e : Endpoint) (key : Bytes)

theorem unsigned_authorization (credential : SharedKey.Credential) (method : String)
    (headers : Headers) (url : Url) :
    unsigned (SharedKey.authorization credential method headers url) =
      "SharedKey " ++ credential.account ++ ":" := by
  have htext : SharedKey.authorization credential method headers url =
      String.ofList (("SharedKey " ++ credential.account).toList ++ ':' :: (credential.sign
        (SharedKey.stringToSign credential.account method headers url)).toList) := by
    rw [← String.toList_inj, String.toList_ofList, SharedKey.authorization, String.toList_append,
      String.toList_append, List.append_assoc]
    rfl
  rw [htext, unsigned_append (colon_not_mem_sign _ _), ← String.toList_inj]
  simp only [String.toList_ofList, String.toList_append]
  rfl

theorem veiled_request (draft : Request) :
    veiled (request e draft) = veiled (request (e.withKey key) draft) := by
  have hheaders : (request e draft).headers.map veil =
      (request (e.withKey key) draft).headers.map veil := by
    simp only [request, Headers.set, List.map_append, List.map_cons, List.map_nil, veil, if_true,
      unsigned_authorization]
    rfl
  exact congrArg (fun headers => { draft with url := draft.url.target, headers := headers })
    hheaders

variable {r r' : Request} (hveiled : veiled r = veiled r') {w w' : Wire} (h : Wire.Like w w')
include hveiled h

theorem course_like :
    (w.course r).outcome = (w'.course r').outcome ∧
      (w.course r).onward.map veiled = (w'.course r').onward.map veiled := by
  have hcourse := follow_veiled w.redirects w.redirects.limit r w.answers
  rw [hveiled, follow_veiled] at hcourse
  rw [Wire.course, Wire.course, ← h.redirects, ← h.answers]
  exact ⟨(congrArg Course.outcome hcourse).symm, (congrArg Course.onward hcourse).symm⟩

theorem behind_like : Wire.Like (w.behind r) (w'.behind r') := by
  obtain ⟨-, honward⟩ := course_like hveiled h
  have hcount := congrArg List.length honward
  rw [List.length_map, List.length_map] at hcount
  refine ⟨h.listening, ?_, ?_, h.redirects⟩
  · rw [Wire.behind, Wire.behind, h.answers, hcount]
  · rw [Wire.behind, Wire.behind, List.map_append, List.map_append, List.map_cons, List.map_cons,
      h.received, hveiled, honward]

theorem exchange_like : Reply.Like Wire.Like Eq (exchange r w) (exchange r' w') := by
  have hsame : (veiled r).url = (veiled r').url := congrArg Request.url hveiled
  have hurl : r.url = r'.url := hsame
  unfold exchange
  rw [← hurl, ← h.listening]
  split
  · exact ⟨(course_like hveiled h).1, rfl, behind_like hveiled h⟩
  · exact ⟨rfl, rfl, h⟩

omit hveiled h

theorem send_like (draft : Request) {w w' : Wire} (h : Wire.Like w w') :
    Reply.Like Wire.Like Eq (send e draft w) (send (e.withKey key) draft w') := by
  by_cases hhost : hasHost draft.url = true
  · by_cases haccount : Headers.isSendable e.credential.account = true
    · have haccount' : Headers.isSendable (e.withKey key).credential.account = true := haccount
      rw [send_of_host hhost haccount, send_of_host hhost haccount']
      exact (exchange_like (veiled_request e key draft) h).noting _
    · have haccount' : ¬Headers.isSendable (e.withKey key).credential.account = true := haccount
      rw [send, send, signed_eq, signed_eq, hhost, if_neg haccount, if_neg haccount']
      exact ⟨rfl, rfl, h⟩
  · rw [send, send, Bool.eq_false_iff.mpr hhost]
    exact ⟨rfl, rfl, h⟩

end Send

-- URLs that were signed in two ways.
inductive SignedAlike : Url → Url → Prop
  | intro (url : Url) (pair : String × String) (pairs : List (String × String))
    (signature signature' : String) :
    SignedAlike (url.appendQuery (pair :: pairs ++ [("sig", signature)]))
      (url.appendQuery (pair :: pairs ++ [("sig", signature')]))

section Operations

variable (e : Endpoint) (key : Bytes) {w w' : Wire} (h : Wire.Like w w')
include h

theorem withBlob_like {α : Type} {Q : Except Failure α → Except Failure α → Prop}
    (hQ : ∀ failure, Q (.error failure) (.error failure)) (name : String)
    {next other : Url → Reply Wire α}
    (hnext : ∀ url, Reply.Like Wire.Like Q (next url) (other url)) :
    Reply.Like Wire.Like Q (withBlob e name w next) (withBlob (e.withKey key) name w' other) := by
  have hurl : (e.withKey key).blobUrl name = e.blobUrl name := rfl
  rw [withBlob, withBlob, hurl]
  cases e.blobUrl name with
  | error failure => exact ⟨hQ failure, rfl, h⟩
  | ok url => exact hnext url

theorem done_like {α : Type} (value : α) :
    Reply.Like Wire.Like Eq (.done w value) (.done w' value) :=
  ⟨rfl, rfl, h⟩

theorem failed_like {α : Type} (failure : Failure) :
    Reply.Like (α := α) Wire.Like Eq (.failed w failure) (.failed w' failure) :=
  ⟨rfl, rfl, h⟩

theorem given_like {α : Type} (result : Except Failure α) :
    Reply.Like Wire.Like Eq (given w result) (given w' result) := by
  cases result with
  | error failure => exact ⟨rfl, rfl, h⟩
  | ok value => exact ⟨rfl, rfl, h⟩

theorem refuse_like {α : Type} (method name : String) (r : Response) :
    Reply.Like (α := α) Wire.Like Eq (refuse e method name r w)
      (refuse (e.withKey key) method name r w') :=
  (failed_like h (refusal e method name r)).noting _

theorem uploaded_like (name : String) (r : Response) :
    Reply.Like Wire.Like Eq (uploaded name r w) (uploaded name r w') := by
  rw [uploaded, uploaded]
  cases checksumHeader? r with
  | error failure => exact failed_like h failure
  | ok checksum =>
    cases checksum with
    | none => exact (done_like h Checksum.none).noting _
    | some checksum => exact done_like h checksum

theorem upload_like (name : String) (source : Except Files.Problem Bytes) :
    Reply.Like Wire.Like Eq (upload e w name source) (upload (e.withKey key) w' name source) := by
  refine withBlob_like e key h (fun _ => rfl) name fun url => Reply.Like.noting ?_ _
  cases source with
  | error problem => exact (failed_like h (trouble url)).noting _
  | ok content =>
    refine (send_like e key (uploadRequest url content) h).andThen fun r w w' h => ?_
    split
    · exact uploaded_like h name r
    · exact refuse_like e key h "PUT" name r

theorem download_like (name : String) :
    Reply.Like Wire.Like Eq (download e w name) (download (e.withKey key) w' name) := by
  refine withBlob_like e key h (fun _ => rfl) name fun url => Reply.Like.noting ?_ _
  refine (send_like e key (getRequest url) h).andThen fun r w w' h => ?_
  split
  · exact given_like h _
  · exact refuse_like e key h "GET" name r

theorem remove_like (name : String) :
    Reply.Like Wire.Like Eq (remove e w name) (remove (e.withKey key) w' name) := by
  refine withBlob_like e key h (fun _ => rfl) name fun url => Reply.Like.noting ?_ _
  refine (send_like e key (removeRequest url) h).andThen fun r w w' h => ?_
  split
  · exact done_like h ()
  · exact refuse_like e key h "DELETE" name r

theorem properties_like (name : String) :
    Reply.Like Wire.Like Eq (properties e w name) (properties (e.withKey key) w' name) := by
  refine withBlob_like e key h (fun _ => rfl) name fun url => Reply.Like.noting ?_ _
  refine (send_like e key (headRequest url) h).andThen fun r w w' h => ?_
  split
  · exact given_like h _
  · exact refuse_like e key h "HEAD" name r

omit h in
theorem appendQuery_signedAlike (url : Url) (grant : SharedKey.Grant)
    (credential other : SharedKey.Credential) :
    SignedAlike (url.appendQuery (grant.query credential))
      (url.appendQuery (grant.query other)) := by
  have hsplit : ∀ credential, SharedKey.Grant.query credential grant =
      ("sv", SharedKey.apiVersion) :: [("st", grant.start.stamp), ("se", grant.expiry.stamp),
        ("sr", "b"), ("sp", grant.permissions), ("spr", grant.protocol)] ++
      [("sig", credential.sign (grant.stringToSign credential.account))] := fun _ => rfl
  rw [hsplit, hsplit]
  exact .intro url _ _ _ _

theorem signed_like {α : Type} {P : α → α → Prop} {a b : α} (hab : P a b) :
    Reply.Like Wire.Like (Matches P) (.done w a) (.done w' b) :=
  ⟨.ok hab, rfl, h⟩

theorem signedUrl_like (name : String) (permissions : Permissions) (expiry : Instant) :
    Reply.Like Wire.Like (Matches SignedAlike) (signedUrl e w name permissions expiry)
      (signedUrl (e.withKey key) w' name permissions expiry) := by
  have hgrant : ∀ url, grant (e.withKey key) url name permissions expiry =
      grant e url name permissions expiry := fun _ => rfl
  refine withBlob_like e key h .error name fun url => Reply.Like.noting ?_ _
  rw [hgrant]
  exact signed_like h (appendQuery_signedAlike url _ _ _)

theorem page_like (under marker : Option String) :
    Reply.Like Wire.Like Eq (page e w under marker) (page (e.withKey key) w' under marker) := by
  have hurl : (e.withKey key).containerUrl = e.containerUrl := rfl
  rw [page, page, hurl]
  cases e.containerUrl with
  | error failure => exact failed_like h failure
  | ok url =>
    refine Reply.Like.noting ?_ _
    refine (send_like e key _ h).andThen fun r w w' h => ?_
    split
    · exact given_like h _
    · exact refuse_like e key h "GET" _ r

omit h in
theorem poll_like (fuel : Nat) (dest : String) (status : Option CopyStatus) {w w' : Wire}
    (h : Wire.Like w w') :
    Reply.Like Wire.Like Eq (poll fuel e dest status w)
      (poll fuel (e.withKey key) dest status w') := by
  induction fuel generalizing status w w' with
  | zero => exact done_like h status
  | succ fuel ih =>
    match status with
    | some .pending =>
      exact ((properties_like e key h dest).andThen fun found w w' h =>
        ih found.copyStatus h).noting _
    | none | some .success | some .aborted | some .failed => exact done_like h _

theorem finished_like (dest : String) (status : Option CopyStatus) :
    Reply.Like Wire.Like Eq (finished dest w status) (finished dest w' status) := by
  unfold finished
  split
  · exact failed_like h _
  · exact failed_like h _
  · exact done_like h ()

theorem copy_like (source dest : String) :
    Reply.Like Wire.Like Eq (copy e w source dest) (copy (e.withKey key) w' source dest) := by
  refine withBlob_like e key h (fun _ => rfl) source fun sourceUrl => ?_
  refine withBlob_like e key h (fun _ => rfl) dest fun destUrl => Reply.Like.noting ?_ _
  refine (send_like e key (copyRequest sourceUrl destUrl) h).andThen fun r w w' h => ?_
  split
  · rw [← h.answers]
    exact (poll_like e key _ dest _ h).andThen fun status w w' h => finished_like h dest status
  · exact refuse_like e key h "PUT" source r

omit h in
theorem backend_like :
    Backend.Like Wire.Like SignedAlike (backend e) (backend (e.withKey key)) where
  now := rfl
  upload := fun h name source => upload_like e key h name source
  download := fun h name => download_like e key h name
  remove := fun h name => remove_like e key h name
  properties := fun h name => properties_like e key h name
  signedUrl := fun h name permissions expiry => signedUrl_like e key h name permissions expiry
  page := fun h under marker => page_like e key h under marker
  copy := fun h source dest => copy_like e key h source dest

end Operations

section Texts

-- Texts of URLs that are the same but for the value of one parameter, which is a signature.
def Resigned (text text' : String) : Prop :=
  ∃ front value value' back : List Char,
    text.toList = front ++ "&sig=".toList ++ value ++ back ∧
    text'.toList = front ++ "&sig=".toList ++ value' ++ back ∧
    (∀ c ∈ value ++ value', c ≠ '&' ∧ c ≠ '#') ∧ ∀ c ∈ back.head?, c = '&' ∨ c = '#'

theorem appendPair_ne_nil (query : List Char) (pair : String × String) :
    Url.Query.appendPair query pair ≠ [] := by
  simp [Url.Query.appendPair, Url.Query.encodePair]

theorem appendPairs_ne_nil (query : List Char) (pair : String × String)
    (pairs : List (String × String)) : Url.Query.appendPairs query (pair :: pairs) ≠ [] := by
  induction pairs generalizing query pair with
  | nil => exact appendPair_ne_nil query pair
  | cons next pairs ih => exact ih (Url.Query.appendPair query pair) next

-- Behind a query that is not empty every pair stands with a mark in front of it.
theorem appendPairs_of_ne_nil {query : List Char} (h : query ≠ [])
    (pairs : List (String × String)) :
    Url.Query.appendPairs query pairs =
      query ++ pairs.flatMap ('&' :: Url.Query.encodePair ·) := by
  induction pairs generalizing query with
  | nil => exact (List.append_nil query).symm
  | cons pair pairs ih =>
    have hpair : Url.Query.appendPair query pair = query ++ '&' :: Url.Query.encodePair pair := by
      rw [Url.Query.appendPair, if_neg h, List.append_assoc, List.singleton_append]
    have hmore : Url.Query.appendPairs query (pair :: pairs) =
        Url.Query.appendPairs (Url.Query.appendPair query pair) pairs := rfl
    rw [hmore, ih (appendPair_ne_nil query pair), hpair, List.flatMap_cons, List.append_assoc]

theorem appendPairs_append (query : List Char) (pairs more : List (String × String)) :
    Url.Query.appendPairs query (pairs ++ more) =
      Url.Query.appendPairs (Url.Query.appendPairs query pairs) more :=
  List.foldl_append

theorem toList_text_appendQuery (url : Url) (pairs : List (String × String)) :
    (url.appendQuery pairs).text.toList =
      (url.scheme ++ ":" ++ url.authorityText ++ url.pathGuard ++ url.path.text).toList ++
        '?' :: Url.Query.appendPairs (url.query.getD "").toList pairs ++
        url.fragmentText.toList := by
  have htext : (url.appendQuery pairs).text =
      url.scheme ++ ":" ++ url.authorityText ++ url.pathGuard ++ url.path.text ++
        ("?" ++ String.ofList (Url.Query.appendPairs (url.query.getD "").toList pairs)) ++
        url.fragmentText := rfl
  rw [htext]
  simp only [String.toList_append, String.toList_ofList]
  rfl

theorem appendQuery_appendQuery (url : Url) (pairs more : List (String × String)) :
    (url.appendQuery pairs).appendQuery more = url.appendQuery (pairs ++ more) := by
  simp only [Url.appendQuery, Option.getD_some, String.toList_ofList, appendPairs_append]

theorem fragmentText_head (url : Url) : ∀ c ∈ url.fragmentText.toList.head?, c = '&' ∨ c = '#' := by
  intro c hc
  unfold Url.fragmentText at hc
  split at hc
  · rw [String.toList_append] at hc
    exact .inr (Option.some.inj hc).symm
  · exact nomatch hc

-- What stands around a signature in a URL's text does not depend on it.
theorem resigned_appendQuery (url : Url) (pair : String × String)
    (pairs more : List (String × String)) (signature signature' : String) :
    Resigned (url.appendQuery (pair :: pairs ++ [("sig", signature)] ++ more)).text
      (url.appendQuery (pair :: pairs ++ [("sig", signature')] ++ more)).text := by
  have htext : ∀ signature,
      (url.appendQuery (pair :: pairs ++ [("sig", signature)] ++ more)).text.toList =
        ((url.scheme ++ ":" ++ url.authorityText ++ url.pathGuard ++ url.path.text).toList ++
          '?' :: Url.Query.appendPairs (url.query.getD "").toList (pair :: pairs)) ++
        "&sig=".toList ++ Url.Query.encodePart signature ++
        (more.flatMap ('&' :: Url.Query.encodePair ·) ++ url.fragmentText.toList) := by
    intro signature
    have hsig : Url.Query.encodePart "sig" = ['s', 'i', 'g'] := by decide
    rw [toList_text_appendQuery, List.append_assoc (pair :: pairs), appendPairs_append,
      appendPairs_of_ne_nil (appendPairs_ne_nil _ pair pairs), List.flatMap_append,
      List.flatMap_singleton, Url.Query.encodePair, hsig]
    simp only [List.append_assoc, List.cons_append]
    rfl
  refine ⟨_, _, _, _, htext signature, htext signature', fun c hc => ?_, ?_⟩
  · have hwritten : Url.Query.isWritten c = true :=
      (List.mem_append.mp hc).elim Url.Query.mem_encodePart Url.Query.mem_encodePart
    obtain ⟨-, hhash, hampersand, -⟩ := Url.Query.isWritten_visible true hwritten
    exact ⟨hampersand, hhash⟩
  · cases more with
    | nil => exact fragmentText_head url
    | cons next rest => exact fun c hc => .inl (Option.some.inj hc).symm

theorem SignedAlike.resigned {url url' : Url} (h : SignedAlike url url') :
    Resigned url.text url'.text := by
  cases h with
  | intro url pair pairs signature signature' =>
    have h := resigned_appendQuery url pair pairs [] signature signature'
    rwa [List.append_nil, List.append_nil] at h

theorem SignedAlike.resigned_extended {url url' : Url} (h : SignedAlike url url')
    (next : String × String) :
    Resigned (url.appendQuery [next]).text (url'.appendQuery [next]).text := by
  cases h with
  | intro url pair pairs signature signature' =>
    rw [appendQuery_appendQuery, appendQuery_appendQuery]
    exact resigned_appendQuery url pair pairs [next] signature signature'

end Texts

-- What can be seen of one step: its result, its events, the files behind it, how many answers were
-- not used, and the requests.
structure Observation where
  step : Step
  seen : Seen
  events : List Event
  files : Files
  unused : Nat
  received : List Request

-- The same but for signatures.
structure Observation.Like (o o' : Observation) : Prop where
  step : o.step = o'.step
  seen : Seen.Like Resigned o.step o.seen o'.seen
  events : o.events = o'.events
  files : o.files = o'.files
  unused : o.unused = o'.unused
  received : o.received.map veiled = o'.received.map veiled

-- A session as it can be seen, with the answers that are ready for each of its steps.
def observe (c : Client Wire) (listening : Bool) (redirects : Redirects) (files : Files) :
    List (List Answer × Step) → List Observation
  | [] => []
  | (answers, step) :: rest =>
    let (seen, s) := c.play ⟨⟨listening, answers, [], redirects⟩, files, []⟩ step
    ⟨step, seen, s.events, s.files, s.store.answers.length, s.store.received⟩ ::
      observe c listening redirects s.files rest

theorem observe_like {c d : Client Wire} (h : Client.Like Wire.Like SignedAlike c d)
    (listening : Bool) (redirects : Redirects) (files : Files) (steps : List (List Answer × Step)) :
    List.Forall₂ Observation.Like (observe c listening redirects files steps)
      (observe d listening redirects files steps) := by
  induction steps generalizing files with
  | nil => exact .nil
  | cons step rest ih =>
    obtain ⟨answers, step⟩ := step
    have hplay := Client.play_like h (fun url url' pair hsigned => hsigned.resigned_extended pair)
      (s := ⟨⟨listening, answers, [], redirects⟩, files, []⟩)
      (t := ⟨⟨listening, answers, [], redirects⟩, files, []⟩)
      ⟨⟨rfl, rfl, rfl, rfl⟩, rfl, rfl⟩ (fun url url' hsigned => hsigned.resigned) step
    rw [observe, observe]
    generalize c.play ⟨⟨listening, answers, [], redirects⟩, files, []⟩ step = x at hplay ⊢
    generalize d.play ⟨⟨listening, answers, [], redirects⟩, files, []⟩ step = y at hplay ⊢
    cases hplay with
    | @intro seen seen' s t hseen hs =>
      have hrest := ih s.files
      rw [hs.files] at hrest
      refine .cons ⟨rfl, hseen, hs.events, hs.files, ?_, hs.store.received⟩ ?_
      · exact congrArg List.length hs.store.answers
      · rw [hs.files]
        exact hrest

-- Accounts that differ in their keys have endpoints that differ in them.
theorem endpoint_withKey (c : Configuration) (override : Option String) (now : Instant)
    {other : String} {key key' : Bytes}
    (hkey : Base64.decode (Text.utf8 (Text.trim c.accountKey)) = .ok key)
    (hother : Base64.decode (Text.utf8 (Text.trim other)) = .ok key') :
    Matches (fun e e' => e' = e.withKey key') (Endpoint.new c override now)
      (Endpoint.new { c with accountKey := other } override now) := by
  have haddress : addressOf { c with accountKey := other } override = addressOf c override := rfl
  by_cases haccount : c.accountName = ""
  · have hnone : ∀ encodedKey, SharedKey.Credential.new c.accountName encodedKey =
        .error (.required "account_name") := fun encodedKey => by
      rw [SharedKey.Credential.new, if_pos haccount]
    simp only [Endpoint.new, hnone, bind, Except.bind]
    exact .error _
  · have hcredential := SharedKey.Credential.new_eq haccount hkey
    have hcredential' := SharedKey.Credential.new_eq haccount hother
    cases hbase : Url.parse (addressOf c override) with
    | error problem =>
      simp only [Endpoint.new, hcredential, hcredential', haddress, hbase, bind, Except.bind]
      exact .error _
    | ok base =>
      have hother :=
        Endpoint.new_eq (c := { c with accountKey := other }) now hcredential' rfl hbase
      rw [Endpoint.new_eq now hcredential rfl hbase, hother]
      exact .ok rfl

theorem clientOf_like (c : Configuration) (around : Program.Surroundings) {other : String}
    {key key' : Bytes} (hkey : Base64.decode (Text.utf8 (Text.trim c.accountKey)) = .ok key)
    (hother : Base64.decode (Text.utf8 (Text.trim other)) = .ok key') :
    Matches (Client.Like Wire.Like SignedAlike) (Program.clientOf c around)
      (Program.clientOf { c with accountKey := other } around) := by
  have hpolicy : Configuration.signPolicy { c with accountKey := other } = c.signPolicy := rfl
  have hendpoint := endpoint_withKey c around.address around.now hkey hother
  rw [Program.clientOf, Program.clientOf, hpolicy]
  generalize Endpoint.new c around.address around.now = x at hendpoint ⊢
  generalize Endpoint.new { c with accountKey := other } around.address around.now = y
    at hendpoint ⊢
  cases hendpoint with
  | error failure => exact .error failure
  | @ok e e' he =>
    subst he
    cases c.signPolicy with
    | error failure => exact .error failure
    | ok policy => exact .ok ⟨backend_like e key', rfl⟩

theorem opening_eq (c : Configuration) (around : Program.Surroundings) {other : String}
    {key key' : Bytes} (hkey : Base64.decode (Text.utf8 (Text.trim c.accountKey)) = .ok key)
    (hother : Base64.decode (Text.utf8 (Text.trim other)) = .ok key') :
    Program.opening { c with accountKey := other } around = Program.opening c around := by
  have hendpoint := endpoint_withKey c around.address around.now hkey hother
  rw [Program.opening, Program.opening]
  generalize Endpoint.new c around.address around.now = x at hendpoint ⊢
  generalize Endpoint.new { c with accountKey := other } around.address around.now = y
    at hendpoint ⊢
  cases hendpoint with
  | error failure => rfl
  | ok he =>
    subst he
    rfl

-- The key of an account shows in nothing but signatures. Texts that are not empty pass for keys
-- alike, what a configuration shows of itself has no key, what is noted before the first step has
-- none, and the sessions of two keys are alike.
theorem sessions_like (c : Configuration) (around : Program.Surroundings) (other : String)
    (hkey : ∃ key, Base64.decode (Text.utf8 (Text.trim c.accountKey)) = .ok key)
    (hother : ∃ key, Base64.decode (Text.utf8 (Text.trim other)) = .ok key)
    (listening : Bool) (redirects : Redirects) (files : Files)
    (steps : List (List Answer × Step)) :
    Configuration.displayText { c with accountKey := other } = c.displayText ∧
    (c.accountKey ≠ "" → other ≠ "" →
      Configuration.validate { c with accountKey := other } = c.validate) ∧
    Program.opening { c with accountKey := other } around = Program.opening c around ∧
    Matches (fun client client' => List.Forall₂ Observation.Like
        (observe client listening redirects files steps)
        (observe client' listening redirects files steps))
      (Program.clientOf c around) (Program.clientOf { c with accountKey := other } around) := by
  obtain ⟨key, hkey⟩ := hkey
  obtain ⟨key', hother⟩ := hother
  refine ⟨rfl, fun hgiven hgiven' => ?_, opening_eq c around hkey hother, ?_⟩
  · rw [Configuration.validate, Configuration.validate, if_neg hgiven, if_neg hgiven']
    rfl
  · have hclients := clientOf_like c around hkey hother
    generalize Program.clientOf c around = x at hclients ⊢
    generalize Program.clientOf { c with accountKey := other } around = y at hclients ⊢
    cases hclients with
    | ok hlike => exact .ok (observe_like hlike listening redirects files steps)
    | error failure => exact .error failure

section Sample

open Endpoint

def otherConfiguration : Configuration := { localConfiguration with accountKey := "AA==" }

theorem localConfiguration_key :
    Base64.decode (Text.utf8 (Text.trim localConfiguration.accountKey)) = .ok [1, 2, 3] := by
  decide +kernel

theorem otherConfiguration_key :
    Base64.decode (Text.utf8 (Text.trim otherConfiguration.accountKey)) = .ok [0] := by
  decide +kernel

theorem otherConfiguration_client (files : Files) (wire : Wire) :
    Program.clientOf otherConfiguration
      ⟨some localService.address, localService.now, files, wire⟩ =
        .ok ⟨backend (localService.withKey [0]), .standard⟩ :=
  Program.clientOf_eq (new_eq _ (SharedKey.Credential.new_eq (by decide) otherConfiguration_key)
    localConfiguration_address localService_base) rfl

def hour : Span := ⟨3600000000000⟩

-- A put that is not verified is taken back, a copy is waited for, what is deleted is sent on, and a URL
-- is signed and written.
def localSteps : List (List Answer × Step) :=
  [([.response ⟨201, [], []⟩, .response ⟨202, [], []⟩], .put "conf" "blob"),
    ([.response (copying 202), .response missing], .copy "blob" "other"),
    ([.response ⟨307, [("location", "http://elsewhere.local/")], []⟩, .response ⟨202, [], []⟩],
      .delete "blob"),
    ([], .execute (.sign "blob" "get" hour) ⟨none, []⟩)]

theorem sessions_like_local :
    (localConfiguration.displayText = otherConfiguration.displayText ∧
      localConfiguration.validate = otherConfiguration.validate) ∧
    Program.opening otherConfiguration
        ⟨some localService.address, localService.now, localFiles, ready []⟩ =
      [.debug "Created Azure blob backend"
        [("service_url", "http://blob.local"), ("container", "releases")]] ∧
    List.Forall₂ Observation.Like
      (observe ⟨backend localService, .standard⟩ true .absolute localFiles localSteps)
      (observe ⟨backend (localService.withKey [0]), .standard⟩ true .absolute localFiles
        localSteps) := by
  obtain ⟨hdisplay, hvalid, hopening, hlike⟩ := sessions_like localConfiguration
    ⟨some localService.address, localService.now, localFiles, ready []⟩ "AA=="
    ⟨[1, 2, 3], localConfiguration_key⟩ ⟨[0], otherConfiguration_key⟩ true .absolute localFiles
    localSteps
  have hother := otherConfiguration_client localFiles (ready [])
  rw [otherConfiguration] at hother
  rw [localConfiguration_client, hother] at hlike
  have hcreated := Endpoint.new_eq localService.now
    (SharedKey.Credential.new_eq (by decide) localConfiguration_key) localConfiguration_address
    localService_base
  have hopened : Program.opening localConfiguration
      ⟨some localService.address, localService.now, localFiles, ready []⟩ = [localService.created] := by
    rw [Program.opening, hcreated]
    rfl
  refine ⟨⟨hdisplay.symm, (hvalid (by decide) (by decide)).symm⟩, hopening.trans hopened, ?_⟩
  cases hlike with
  | ok hlike => exact hlike

-- What a step shows that signs a URL and has room for so many bytes of it.
theorem observe_sign (client : Client Wire) (length room : Nat)
    (h : ((client.sign "blob" "get" hour ⟨ready [], .empty, []⟩).1.toOption.map
      fun text => (Text.utf8 text).length) = some length) :
    ∃ output, (observe client true .absolute .empty
        [([], .execute (.sign "blob" "get" hour) ⟨some room, []⟩)]).map (·.seen) =
      [.finished (if length < room then .ok .success else .error (.io Command.Writer.full))
        output] := by
  have hseen : (observe client true .absolute .empty
      [([], .execute (.sign "blob" "get" hour) ⟨some room, []⟩)]).map (·.seen) =
        [(client.play ⟨ready [], .empty, []⟩
          (.execute (.sign "blob" "get" hour) ⟨some room, []⟩)).1] := rfl
  rw [hseen, Client.play_execute, Client.shown_sign, Client.shown]
  cases hsign : (client.sign "blob" "get" hour ⟨ready [], .empty, []⟩).1 with
  | error failure =>
    rw [hsign] at h
    exact absurd h (Option.some_ne_none length).symm
  | ok text =>
    rw [hsign] at h
    obtain rfl : (Text.utf8 text).length = length := Option.some.inj h
    exact ⟨_, rfl⟩

-- Room for the one URL and not for the other: their signatures are not of one length when they are
-- written in a query.
theorem sessions_unlike_room :
    (Base64.decode (Text.utf8 (Text.trim localConfiguration.accountKey)) = .ok [1, 2, 3] ∧
      Base64.decode (Text.utf8 (Text.trim otherConfiguration.accountKey)) = .ok [0] ∧
      otherConfiguration = { localConfiguration with accountKey := "AA==" }) ∧
    ∃ client client', Program.clientOf localConfiguration
        ⟨some localService.address, localService.now, .empty, ready []⟩ = .ok client ∧
      Program.clientOf otherConfiguration
        ⟨some localService.address, localService.now, .empty, ready []⟩ = .ok client' ∧
      (∃ output, (observe client true .absolute .empty [([], .execute
        (.sign "blob" "get" hour) ⟨some 195, []⟩)]).map (·.seen) =
          [.finished (.error (.io Command.Writer.full)) output]) ∧
      ∃ output, (observe client' true .absolute .empty [([], .execute
        (.sign "blob" "get" hour) ⟨some 195, []⟩)]).map (·.seen) =
          [.finished (.ok .success) output] := by
  refine ⟨⟨localConfiguration_key, otherConfiguration_key, rfl⟩, _, _,
    localConfiguration_client _ _, otherConfiguration_client _ _, ?_, ?_⟩
  · exact observe_sign _ 196 195 (by decide +kernel)
  · exact observe_sign _ 194 195 (by decide +kernel)

end Sample

end BlobStorage.Service
