import BlobStorage.Proofs.Service.Answered
import BlobStorage.Proofs.Service.Authenticated

-- Copies: the state of a copy is asked for as long as the answers say that it is pending, and the first
-- answer that does not decides how the copy ends.
namespace BlobStorage

-- Two results that look the same failed alike, or gave values that look the same.
theorem Except.map_eq_map {ε α β γ : Type} {x : Except ε α} {y : Except ε β} {f : α → γ} {g : β → γ}
    (h : x.map f = y.map g) :
    (∃ failure, x = .error failure ∧ y = .error failure) ∨
      ∃ a b, x = .ok a ∧ y = .ok b ∧ f a = g b := by
  cases x with
  | error failure =>
    cases y with
    | error other =>
      obtain rfl : failure = other := Except.error.inj h
      exact .inl ⟨failure, rfl, rfl⟩
    | ok b => exact nomatch h
  | ok a =>
    cases y with
    | error failure => exact nomatch h
    | ok b => exact .inr ⟨a, b, rfl, rfl, Except.ok.inj h⟩

namespace Reply

variable {σ α β : Type} {reply : Reply σ α}

theorem andThen_of_error {failure : Failure} (h : reply.result = .error failure)
    (next : α → σ → Reply σ β) :
    reply.andThen next = ⟨.error failure, reply.events, reply.store⟩ := by
  rw [andThen, h]

theorem andThen_of_ok {value : α} (h : reply.result = .ok value) (next : α → σ → Reply σ β) :
    (reply.andThen next).result = (next value reply.store).result ∧
      (reply.andThen next).store = (next value reply.store).store := by
  rw [andThen, h]
  exact ⟨rfl, rfl⟩

theorem andThen_store_of_kept {next : α → σ → Reply σ β}
    (h : ∀ value store, (next value store).store = store) :
    (reply.andThen next).store = reply.store := by
  rw [andThen]
  split
  · rfl
  · exact h _ _

end Reply

theorem CopyStatus.parse?_eq_some_iff {text : String} {status : CopyStatus} :
    parse? text = some status ↔ text = status.text := by
  constructor
  · intro h
    unfold parse? at h
    have hfound := List.find?_some h
    exact (beq_iff_eq.mp hfound).symm
  · rintro rfl
    exact parse?_text status

namespace Service

open Http

-- The text of a copy's state, where an answer has one.
def stateText? (r : Response) : Option String := r.headers.text? "x-ms-copy-status"

-- What comes back for the request for a copy tells its state. A refusal names the source.
def started (e : Endpoint) (source : String) (outcome : Except Failure Response) :
    Except Failure (Option String) :=
  outcome.bind fun r =>
    if 200 ≤ r.status ∧ r.status < 300 then .ok (stateText? r)
    else .error (refusal e "PUT" source r)

-- So does what comes back for a poll. A refusal names the destination.
def polled (e : Endpoint) (dest : String) (outcome : Except Failure Response) :
    Except Failure (Option String) :=
  outcome.bind fun r =>
    if r.status = 200 then (propertiesOf r).map fun _ => stateText? r
    else .error (refusal e "HEAD" dest r)

-- The wire behind a number of polls.
def Wire.polls (wire : Wire) (check : Request) : Nat → Wire
  | 0 => wire
  | count + 1 => (wire.behind check).polls check count

-- What comes back for the requests of a copy, for that which starts it first.
def copyOutcomes (wire : Wire) (start check : Request) : Nat → Except Failure Response
  | 0 => (wire.course start).outcome
  | i + 1 => (((wire.behind start).polls check i).course check).outcome

-- The states of a copy that are told.
def copyStates (e : Endpoint) (source dest : String) (outcomes : Nat → Except Failure Response) :
    Nat → Except Failure (Option String)
  | 0 => started e source (outcomes 0)
  | i + 1 => polled e dest (outcomes (i + 1))

-- What a copy ends with once it is not pending.
def ending (dest : String) : Option String → Except Failure Unit
  | some "aborted" => .error (.copyFailed dest "aborted")
  | some "failed" => .error (.copyFailed dest "failed")
  | _ => .ok ()

variable {e : Endpoint} {source dest : String} {sourceUrl url : Url} {wire : Wire}
  {start check : Request}

section States

theorem bind_parse?_eq_some_iff {state : Option String} {status : CopyStatus} :
    state.bind CopyStatus.parse? = some status ↔ state = some status.text := by
  rw [Option.bind_eq_some_iff]
  constructor
  · rintro ⟨text, rfl, htext⟩
    rw [CopyStatus.parse?_eq_some_iff.mp htext]
  · rintro rfl
    exact ⟨_, rfl, CopyStatus.parse?_text status⟩

theorem propertiesOf_copyStatus {r : Response} {found : Properties}
    (h : propertiesOf r = .ok found) : found.copyStatus = copyStatusOf r := by
  unfold propertiesOf at h
  cases hsize : numberHeader? r "content-length" with
  | error failure =>
    rw [hsize] at h
    exact nomatch h
  | ok size =>
    cases hmd5 : checksumHeader? r with
    | error failure =>
      rw [hsize, hmd5] at h
      exact nomatch h
    | ok md5 =>
      rw [hsize, hmd5] at h
      rw [← Except.ok.inj h]

theorem finished_result (wire : Wire) (state : Option String) :
    (finished dest wire (state.bind CopyStatus.parse?)).result = ending dest state := by
  unfold ending
  split
  · rfl
  · rfl
  · rename_i haborted hfailed
    unfold finished
    split
    · rename_i h
      exact absurd (bind_parse?_eq_some_iff.mp h) haborted
    · rename_i h
      exact absurd (bind_parse?_eq_some_iff.mp h) hfailed
    · rfl

-- The state of a copy, and what the polls behind it tell.
def states (e : Endpoint) (dest : String) (check : Request) (first : Except Failure (Option String))
    (wire : Wire) : Nat → Except Failure (Option String)
  | 0 => first
  | i + 1 => polled e dest ((wire.polls check i).course check).outcome

theorem outcome_of_polled {outcome : Except Failure Response} {state : Option String}
    (h : polled e dest outcome = .ok state) : ∃ r, outcome = .ok r := by
  cases outcome with
  | error failure => exact nomatch h
  | ok r => exact ⟨r, rfl⟩

theorem states_next (first : Except Failure (Option String)) (wire : Wire) (i : Nat) :
    states e dest check first wire (i + 1) =
      states e dest check (polled e dest (wire.course check).outcome) (wire.behind check) i := by
  cases i <;> rfl

theorem copyStates_eq (wire : Wire) (i : Nat) :
    copyStates e source dest (copyOutcomes wire start check) i =
      states e dest check (started e source (wire.course start).outcome) (wire.behind start) i := by
  cases i <;> rfl

end States

section Polls

theorem polls_redirects (wire : Wire) (check : Request) (count : Nat) :
    (wire.polls check count).redirects = wire.redirects := by
  induction count generalizing wire with
  | zero => rfl
  | succ count ih => exact ih (wire.behind check)

theorem polls_received (wire : Wire) (check : Request) (count : Nat) :
    (wire.polls check count).received = wire.received ++
      (List.range count).flatMap fun i => check :: ((wire.polls check i).course check).onward := by
  induction count generalizing wire with
  | zero => exact (List.append_nil _).symm
  | succ count ih =>
    rw [List.range_succ_eq_map, List.flatMap_cons, List.flatMap_map, ← List.append_assoc]
    exact ih (wire.behind check)

variable (hdirect : ∀ r, .response r ∈ wire.answers → r.isRedirect = false)
include hdirect

theorem polls_of_direct (check : Request) (count : Nat) :
    wire.polls check count =
      { wire with
        answers := wire.answers.drop count
        received := wire.received ++ List.replicate count check } := by
  induction count generalizing wire with
  | zero =>
    rw [List.drop_zero, List.replicate_zero, List.append_nil]
    rfl
  | succ count ih =>
    have hbehind := (keeps_of_no_redirect hdirect check).behind
    have hrest : ∀ r, .response r ∈ (wire.behind check).answers → r.isRedirect = false := by
      intro r hr
      rw [hbehind] at hr
      exact hdirect r (List.mem_of_mem_tail hr)
    rw [Wire.polls, ih hrest, hbehind, List.drop_tail, List.append_assoc, List.replicate_succ,
      List.singleton_append]

theorem course_of_direct (check : Request) (i : Nat) :
    ((wire.polls check i).course check).outcome = answered check.url wire.answers[i]? := by
  have hrest : ∀ r, .response r ∈ (wire.polls check i).answers → r.isRedirect = false := by
    intro r hr
    rw [polls_of_direct hdirect] at hr
    exact hdirect r (List.mem_of_mem_drop hr)
  rw [(keeps_of_no_redirect hrest check).course, polls_of_direct hdirect, List.head?_drop]

end Polls

section Requests

variable (hdest : e.blobUrl dest = .ok url) (hreach : Reachable e url wire)
include hdest hreach

theorem properties_polled :
    (properties e wire dest).result.map (·.copyStatus) =
      (polled e dest (wire.course (request e (headRequest url))).outcome).map
        (·.bind CopyStatus.parse?) := by
  have hsend : send e (headRequest url) wire = ⟨_, _, _⟩ := send_eq hreach
  have hsent := congrArg Reply.result hsend
  rw [polled]
  cases houtcome : (wire.course (request e (headRequest url))).outcome with
  | error failure =>
    rw [houtcome] at hsent
    rw [properties, withBlob, hdest]
    simp only [Reply.noting, Reply.andThen_result, hsent]
    rfl
  | ok r =>
    rw [houtcome] at hsent
    rw [properties_result hdest hsent, Except.bind]
    by_cases hok : r.status = 200
    · rw [if_pos (show r.status = Status.ok from hok), if_pos hok]
      cases hfound : propertiesOf r with
      | error failure => rfl
      | ok found => exact congrArg Except.ok (propertiesOf_copyStatus hfound)
    · rw [if_neg (show r.status ≠ Status.ok from hok), if_neg hok]
      rfl

theorem properties_behind :
    (properties e wire dest).store = wire.behind (request e (headRequest url)) := by
  rw [properties_store hdest, send_eq hreach]

end Requests

-- A number of polls from a state on: all states in front of the last were pending, and the last is not.
structure PollRun (e : Endpoint) (dest : String) (check : Request)
    (first : Except Failure (Option String)) (wire : Wire) (count : Nat)
    (result : Except Failure (Option CopyStatus)) (store : Wire) : Prop where
  pending : ∀ i < count, states e dest check first wire i = .ok (some "pending")
  settled : states e dest check first wire count ≠ .ok (some "pending")
  result : result = (states e dest check first wire count).map (·.bind CopyStatus.parse?)
  store : store = wire.polls check count

namespace PollRun

variable {first : Except Failure (Option String)}

theorem rest (h : first ≠ .ok (some "pending")) :
    PollRun e dest check first wire 0 (first.map (·.bind CopyStatus.parse?)) wire where
  pending := nofun
  settled := h
  result := rfl
  store := rfl

theorem next {count : Nat} {result : Except Failure (Option CopyStatus)} {store : Wire}
    (h : PollRun e dest check (polled e dest (wire.course check).outcome) (wire.behind check) count
      result store) :
    PollRun e dest check (.ok (some "pending")) wire (count + 1) result store where
  pending i hi := by
    cases i with
    | zero => rfl
    | succ i =>
      rw [states_next]
      exact h.pending i (Nat.lt_of_succ_lt_succ hi)
  settled := by
    rw [states_next]
    exact h.settled
  result := by
    rw [states_next]
    exact h.result
  store := h.store

end PollRun

theorem poll_of_settled {fuel : Nat} {status : Option CopyStatus} (h : status ≠ some .pending) :
    poll fuel e dest status wire = .done wire status := by
  cases fuel with
  | zero => rfl
  | succ fuel =>
    cases status with
    | none => rfl
    | some status =>
      cases status with
      | pending => exact absurd rfl h
      | success => rfl
      | aborted => rfl
      | failed => rfl

-- Every poll takes an answer, so that the polls end before the fuel does.
theorem poll_run (hdest : e.blobUrl dest = .ok url) (fuel : Nat) (state : Option String) (wire : Wire)
    (hreach : Reachable e url wire) (hfuel : wire.answers.length < fuel) :
    ∃ count, PollRun e dest (request e (headRequest url)) (.ok state) wire count
      (poll fuel e dest (state.bind CopyStatus.parse?) wire).result
      (poll fuel e dest (state.bind CopyStatus.parse?) wire).store := by
  induction fuel generalizing state wire with
  | zero => exact absurd hfuel (Nat.not_lt_zero _)
  | succ fuel ih =>
    by_cases hpending : state = some "pending"
    · subst hpending
      have hstate : (some "pending").bind CopyStatus.parse? = some .pending := rfl
      have hpoll : poll (fuel + 1) e dest (some .pending) wire =
          .noting (.debug "Copy pending" [("destination", dest)])
            ((properties e wire dest).andThen fun p wire => poll fuel e dest p.copyStatus wire) := rfl
      have hbehind := properties_behind hdest hreach
      rw [hstate, hpoll]
      obtain ⟨failure, hfound, hpolled⟩ | ⟨found, next, hfound, hpolled, hstatus⟩ :=
        Except.map_eq_map (properties_polled hdest hreach)
      · refine ⟨1, .next ?_⟩
        rw [hpolled, Reply.andThen_of_error hfound]
        simp only [Reply.noting, hbehind]
        refine .rest fun h => ?_
        cases h
      · obtain ⟨r, houtcome⟩ := outcome_of_polled hpolled
        have hrest := behind_answers houtcome
        obtain ⟨count, hrun⟩ := ih next (wire.behind (request e (headRequest url)))
          (hreach.behind _) (by omega)
        obtain ⟨hresult, hstore⟩ := Reply.andThen_of_ok hfound fun p wire =>
          poll fuel e dest p.copyStatus wire
        refine ⟨count + 1, .next ?_⟩
        simp only [Reply.noting, hresult, hstore, hbehind, hstatus, hpolled]
        exact hrun
    · have hsettled : state.bind CopyStatus.parse? ≠ some .pending :=
        mt bind_parse?_eq_some_iff.mp hpending
      rw [poll_of_settled hsettled]
      exact ⟨0, .rest fun h => hpending (Except.ok.inj h)⟩

-- How a copy goes whose first request is received: what is sent, and what comes of it.
structure CopyRun (e : Endpoint) (source dest : String) (start check : Request) (wire : Wire)
    (count : Nat) (result : Except Failure Unit) (store : Wire) : Prop where
  pending : ∀ i < count,
    copyStates e source dest (copyOutcomes wire start check) i = .ok (some "pending")
  settled : copyStates e source dest (copyOutcomes wire start check) count ≠ .ok (some "pending")
  result : result =
    (copyStates e source dest (copyOutcomes wire start check) count).bind (ending dest)
  store : store = (wire.behind start).polls check count

-- What the polls of a copy come to is what the copy comes to.
theorem PollRun.copyRun {count : Nat} {result : Except Failure (Option CopyStatus)} {store : Wire}
    (h : PollRun e dest check (started e source (wire.course start).outcome) (wire.behind start) count
      result store) (after : Wire) :
    CopyRun e source dest start check wire count
      (result.bind fun status => (finished dest after status).result) store where
  pending i hi := (copyStates_eq wire i).trans (h.pending i hi)
  settled := by
    rw [copyStates_eq]
    exact h.settled
  result := by
    rw [h.result, copyStates_eq]
    cases states e dest check (started e source (wire.course start).outcome) (wire.behind start)
        count with
    | error failure => rfl
    | ok state => exact finished_result after state
  store := h.store

theorem CopyRun.unstarted {failure : Failure}
    (h : started e source (wire.course start).outcome = .error failure) :
    CopyRun e source dest start check wire 0 (.error failure) (wire.behind start) where
  pending := nofun
  settled := by
    rw [copyStates_eq, states, h]
    exact nofun
  result := by
    rw [copyStates_eq, states, h]
    rfl
  store := rfl

-- What becomes of a copy once the request for it was answered.
def copyRest (e : Endpoint) (source dest : String) (r : Response) (wire : Wire) : Reply Wire Unit :=
  if Status.isSuccess r.status then
    (poll (wire.answers.length + 1) e dest (copyStatusOf r) wire).andThen
      fun status wire => finished dest wire status
  else refuse e "PUT" source r wire

theorem backend_copy (e : Endpoint) (wire : Wire) (source dest : String) :
    (backend e).copy wire source dest = copy e wire source dest := rfl

theorem copy_eq (hsource : e.blobUrl source = .ok sourceUrl) (hdest : e.blobUrl dest = .ok url)
    (wire : Wire) :
    copy e wire source dest =
      .noting (.info "Copying" [("source", sourceUrl.text), ("destination", url.text)])
        ((send e (copyRequest sourceUrl url) wire).andThen (copyRest e source dest)) := by
  rw [copy, withBlob, hsource]
  simp only [withBlob, hdest]
  rfl

theorem copyRest_run (hdest : e.blobUrl dest = .ok url) (hreach : Reachable e url wire)
    {r : Response} (houtcome : (wire.course start).outcome = .ok r) :
    ∃ count, CopyRun e source dest start (request e (headRequest url)) wire count
      (copyRest e source dest r (wire.behind start)).result
      (copyRest e source dest r (wire.behind start)).store := by
  by_cases hstatus : 200 ≤ r.status ∧ r.status < 300
  · have hstarted : started e source (wire.course start).outcome = .ok (stateText? r) := by
      rw [started, houtcome]
      exact if_pos hstatus
    obtain ⟨count, hrun⟩ := poll_run hdest _ (stateText? r) (wire.behind start) (hreach.behind _)
      (Nat.lt_succ_self _)
    rw [← hstarted] at hrun
    rw [copyRest, if_pos ((Status.isSuccess_iff _).mpr hstatus), Reply.andThen_result,
      Reply.andThen_store_of_kept fun status wire => finished_store dest wire status]
    exact ⟨count, hrun.copyRun _⟩
  · have hrefused : started e source (wire.course start).outcome =
        .error (refusal e "PUT" source r) := by
      rw [started, houtcome]
      exact if_neg hstatus
    rw [copyRest, if_neg (mt (Status.isSuccess_iff _).mp hstatus)]
    exact ⟨0, .unstarted hrefused⟩

theorem copy_run (hsource : e.blobUrl source = .ok sourceUrl) (hdest : e.blobUrl dest = .ok url)
    (hreach : Reachable e url wire) :
    ∃ count, CopyRun e source dest (request e (copyRequest sourceUrl url))
      (request e (headRequest url)) wire count
      (copy e wire source dest).result (copy e wire source dest).store := by
  have hsend : send e (copyRequest sourceUrl url) wire = ⟨_, _, _⟩ := send_eq hreach
  have hsent := congrArg Reply.result hsend
  have hbehind := congrArg Reply.store hsend
  rw [copy_eq hsource hdest]
  cases houtcome : (wire.course (request e (copyRequest sourceUrl url))).outcome with
  | error failure =>
    have hstarted : started e source
        (wire.course (request e (copyRequest sourceUrl url))).outcome = .error failure := by
      rw [started, houtcome]
      rfl
    rw [houtcome] at hsent
    rw [Reply.andThen_of_error hsent, Reply.noting, hbehind]
    exact ⟨0, .unstarted hstarted⟩
  | ok r =>
    rw [houtcome] at hsent
    obtain ⟨hresult, hstore⟩ := Reply.andThen_of_ok hsent (copyRest e source dest)
    rw [Reply.noting, hresult, hstore, hbehind]
    exact copyRest_run hdest hreach houtcome

section Ends

variable {outcomes : Nat → Except Failure Response} {count : Nat} {result : Except Failure Unit}
  {store : Wire}

theorem ending_ok_iff {state : Option String} :
    ending dest state = .ok () ↔ state ≠ some "aborted" ∧ state ≠ some "failed" := by
  unfold ending
  split
  · simp
  · simp
  · rename_i haborted hfailed
    exact ⟨fun _ => ⟨haborted, hfailed⟩, fun _ => rfl⟩

theorem ending_copyFailed_iff {state : Option String} {status : String} :
    ending dest state = .error (.copyFailed dest status) ↔
      state = some status ∧ (status = "aborted" ∨ status = "failed") := by
  unfold ending
  split
  · simp only [Except.error.injEq, Failure.copyFailed.injEq, true_and, Option.some.injEq]
    exact ⟨fun h => ⟨h, .inl h.symm⟩, fun h => h.1⟩
  · simp only [Except.error.injEq, Failure.copyFailed.injEq, true_and, Option.some.injEq]
    exact ⟨fun h => ⟨h, .inr h.symm⟩, fun h => h.1⟩
  · rename_i haborted hfailed
    constructor
    · exact nofun
    · rintro ⟨rfl, rfl | rfl⟩
      · exact absurd rfl haborted
      · exact absurd rfl hfailed

-- Of the failures of single requests none says that a copy failed.
theorem refusal_ne_copyFailed (method key copied text : String) (r : Response) :
    refusal e method key r ≠ .copyFailed copied text := by
  unfold refusal classify Failure.ofStatus
  simp only
  split_ifs <;> exact nofun

theorem started_ne_copyFailed {outcome : Except Failure Response}
    (hlost : ∀ failure, outcome = .error failure → ∃ text, failure = .http text) {failure : Failure}
    (h : started e source outcome = .error failure) (copied text : String) :
    failure ≠ .copyFailed copied text := by
  unfold started at h
  cases outcome with
  | error problem =>
    cases h
    obtain ⟨lost, rfl⟩ := hlost _ rfl
    exact nofun
  | ok r =>
    rw [Except.bind] at h
    split at h
    · exact nomatch h
    · cases h
      exact refusal_ne_copyFailed "PUT" source copied text r

theorem polled_ne_copyFailed {outcome : Except Failure Response}
    (hlost : ∀ failure, outcome = .error failure → ∃ text, failure = .http text) {failure : Failure}
    (h : polled e dest outcome = .error failure) (copied text : String) :
    failure ≠ .copyFailed copied text := by
  unfold polled at h
  cases outcome with
  | error problem =>
    cases h
    obtain ⟨lost, rfl⟩ := hlost _ rfl
    exact nofun
  | ok r =>
    rw [Except.bind] at h
    split at h
    · cases hfound : propertiesOf r with
      | error problem =>
        rw [hfound] at h
        cases h
        obtain ⟨malformed, rfl⟩ := propertiesOf_malformed hfound
        exact nofun
      | ok found =>
        rw [hfound] at h
        exact nomatch h
    · cases h
      exact refusal_ne_copyFailed "HEAD" dest copied text r

theorem copyOutcomes_lost {failure : Failure}
    (h : copyOutcomes wire start check count = .error failure) : ∃ text, failure = .http text := by
  cases count with
  | zero => exact course_lost h
  | succ i => exact course_lost h

theorem copyStates_ne_copyFailed {failure : Failure}
    (h : copyStates e source dest (copyOutcomes wire start check) count = .error failure)
    (copied text : String) : failure ≠ .copyFailed copied text := by
  cases count with
  | zero => exact started_ne_copyFailed (fun _ => copyOutcomes_lost) h copied text
  | succ i => exact polled_ne_copyFailed (fun _ => copyOutcomes_lost) h copied text

-- What the requests of a copy come to has to do with the end of the copy.
structure CopyEnds (e : Endpoint) (source dest : String) (outcomes : Nat → Except Failure Response)
    (count : Nat) (result : Except Failure Unit) : Prop where
  pending : ∀ i < count, copyStates e source dest outcomes i = .ok (some "pending")
  settled : copyStates e source dest outcomes count ≠ .ok (some "pending")
  copied : result = .ok () ↔ ∃ state, copyStates e source dest outcomes count = .ok state ∧
    state ≠ some "aborted" ∧ state ≠ some "failed"
  failed : ∀ status, result = .error (.copyFailed dest status) ↔
    copyStates e source dest outcomes count = .ok (some status) ∧
      (status = "aborted" ∨ status = "failed")
  troubled : ∀ failure, copyStates e source dest outcomes count = .error failure →
    result = .error failure
  unstarted : ∀ r, outcomes 0 = .ok r → ¬(200 ≤ r.status ∧ r.status < 300) →
    count = 0 ∧ ∃ failure, result = .error failure ∧
      Tells e source r.status (codeOf "PUT" r) failure
  unpolled : ∀ r, 0 < count → outcomes count = .ok r → r.status ≠ 200 →
    ∃ failure, result = .error failure ∧ Tells e dest r.status (codeOf "HEAD" r) failure

theorem copyStates_refused {r : Response} (hr : outcomes 0 = .ok r)
    (hstatus : ¬(200 ≤ r.status ∧ r.status < 300)) :
    copyStates e source dest outcomes 0 = .error (refusal e "PUT" source r) := by
  rw [copyStates, started, hr]
  exact if_neg hstatus

theorem copyStates_unpolled {r : Response} (hpolled : 0 < count)
    (hr : outcomes count = .ok r) (hstatus : r.status ≠ 200) :
    copyStates e source dest outcomes count = .error (refusal e "HEAD" dest r) := by
  obtain ⟨i, rfl⟩ := Nat.exists_eq_add_of_lt hpolled
  rw [copyStates, polled, hr]
  exact if_neg hstatus

theorem CopyRun.ends (h : CopyRun e source dest start check wire count result store) :
    CopyEnds e source dest (copyOutcomes wire start check) count result where
  pending := h.pending
  settled := h.settled
  copied := by
    rw [h.result]
    cases copyStates e source dest (copyOutcomes wire start check) count with
    | error failure => exact ⟨nofun, nofun⟩
    | ok state =>
      rw [Except.bind, ending_ok_iff]
      exact ⟨fun h => ⟨state, rfl, h⟩, fun ⟨_, hstate, h⟩ => Except.ok.inj hstate ▸ h⟩
  failed status := by
    rw [h.result]
    cases hstate : copyStates e source dest (copyOutcomes wire start check) count with
    | error failure =>
      refine ⟨fun heq => ?_, nofun⟩
      exact absurd (Except.error.inj heq) (copyStates_ne_copyFailed hstate dest status)
    | ok state => rw [Except.bind, ending_copyFailed_iff, Except.ok.injEq]
  troubled failure hstate := by
    rw [h.result, hstate]
    rfl
  unstarted r hr hstatus := by
    have hrefused : copyStates e source dest (copyOutcomes wire start check) 0 = _ :=
      copyStates_refused hr hstatus
    have hcount : count = 0 := by
      refine Nat.eq_zero_of_not_pos fun hpos => ?_
      rw [h.pending 0 hpos] at hrefused
      exact nomatch hrefused
    refine ⟨hcount, refusal e "PUT" source r, ?_, refusal_tells e "PUT" source r⟩
    rw [h.result, hcount, hrefused]
    rfl
  unpolled r hpolled hr hstatus := by
    refine ⟨refusal e "HEAD" dest r, ?_, refusal_tells e "HEAD" dest r⟩
    rw [h.result, copyStates_unpolled hpolled hr hstatus]
    rfl

end Ends

section Sent

-- What is sent for a copy: the request for it and a number of polls, each with those that redirects
-- made of it. Where nothing redirects, each takes one answer.
structure CopySends (wire : Wire) (start check : Request) (count : Nat) (store : Wire) : Prop where
  taken : store = (wire.behind start).polls check count
  received : ∃ onward : Nat → List Request,
    Onward wire.redirects start (onward 0) ∧
    (∀ i, Onward wire.redirects check (onward (i + 1))) ∧
    store.received = wire.received ++ (start :: onward 0) ++
      (List.range count).flatMap fun i => check :: onward (i + 1)
  direct : (∀ r, .response r ∈ wire.answers → r.isRedirect = false) →
    store = { wire with
      answers := wire.answers.drop (count + 1)
      received := wire.received ++ start :: List.replicate count check } ∧
    copyOutcomes wire start check 0 = answered start.url wire.answers.head? ∧
    ∀ i, copyOutcomes wire start check (i + 1) = answered check.url wire.answers[i + 1]?

theorem copySends (wire : Wire) (start check : Request) (count : Nat) :
    CopySends wire start check count ((wire.behind start).polls check count) where
  taken := rfl
  received := by
    refine ⟨fun
      | 0 => (wire.course start).onward
      | i + 1 => (((wire.behind start).polls check i).course check).onward, ?_, ?_, ?_⟩
    · exact wire.course_onward start
    · intro i
      have honward := ((wire.behind start).polls check i).course_onward check
      rwa [polls_redirects] at honward
    · exact polls_received (wire.behind start) check count
  direct hdirect := by
    have hkeeps := keeps_of_no_redirect hdirect start
    have hbehind := hkeeps.behind
    have hrest : ∀ r, .response r ∈ (wire.behind start).answers → r.isRedirect = false := by
      intro r hr
      rw [hbehind] at hr
      exact hdirect r (List.mem_of_mem_tail hr)
    refine ⟨?_, ?_, fun i => ?_⟩
    · rw [polls_of_direct hrest, hbehind, List.drop_tail, List.append_assoc,
        List.singleton_append]
    · rw [copyOutcomes, hkeeps.course]
    · rw [copyOutcomes, course_of_direct hrest, hbehind, List.getElem?_tail]

end Sent

-- A key without a URL ends a copy before anything is sent.
theorem copy_of_unaddressed {failure : Failure} (wire : Wire)
    (h : e.blobUrl source = .error failure ∨
      (∃ url, e.blobUrl source = .ok url) ∧ e.blobUrl dest = .error failure) :
    (copy e wire source dest).result = .error failure ∧ (copy e wire source dest).store = wire := by
  rw [copy]
  rcases h with hsource | ⟨⟨url, hsource⟩, hdest⟩
  · rw [withBlob, hsource]
    exact ⟨rfl, rfl⟩
  · rw [withBlob, hsource]
    simp only [withBlob, hdest]
    exact ⟨rfl, rfl⟩

theorem copy_of_unreached (hsource : e.blobUrl source = .ok sourceUrl)
    (hdest : e.blobUrl dest = .ok url) (hreach : ¬Reachable e url wire) :
    (∃ failure, (copy e wire source dest).result = .error failure) ∧
      (copy e wire source dest).store = wire := by
  obtain ⟨⟨failure, hsent⟩, hstore⟩ :
      (∃ failure, (send e (copyRequest sourceUrl url) wire).result = .error failure) ∧ _ :=
    send_unreached hreach
  rw [copy_eq hsource hdest, Reply.andThen_of_error hsent, Reply.noting, hstore]
  exact ⟨⟨failure, rfl⟩, rfl⟩

theorem request_copySource (e : Endpoint) (sourceUrl url : Url) :
    (request e (copyRequest sourceUrl url)).headers.all "x-ms-copy-source" = [sourceUrl.text] := by
  rw [request, Http.Headers.all_set_ne _ (by decide)]
  rfl

-- A copy of blobs that have URLs sends one request for the copy and then one for its state after each
-- outcome that says that it is pending. The first other outcome decides what the copy ends with.
theorem copy_polls (e : Endpoint) (source dest : String) (wire : Wire) :
    (∀ failure, e.blobUrl source = .error failure ∨
        (∃ url, e.blobUrl source = .ok url) ∧ e.blobUrl dest = .error failure →
      ((backend e).copy wire source dest).result = .error failure ∧
        ((backend e).copy wire source dest).store = wire) ∧
    ∀ sourceUrl url, e.blobUrl source = .ok sourceUrl → e.blobUrl dest = .ok url →
      (¬Reachable e url wire →
        (∃ failure, ((backend e).copy wire source dest).result = .error failure) ∧
          ((backend e).copy wire source dest).store = wire) ∧
      (Reachable e url wire → ∃ count start check,
        (start.method = "PUT" ∧ start.url = url.target ∧
          start.headers.all "x-ms-copy-source" = [sourceUrl.text]) ∧
        (check.method = "HEAD" ∧ check.url = url.target) ∧
        CopySends wire start check count ((backend e).copy wire source dest).store ∧
        CopyEnds e source dest (copyOutcomes wire start check) count
          ((backend e).copy wire source dest).result) := by
  refine ⟨fun failure h => copy_of_unaddressed wire h, fun sourceUrl url hsource hdest => ⟨?_, ?_⟩⟩
  · exact copy_of_unreached hsource hdest
  · intro hreach
    obtain ⟨count, hrun⟩ := copy_run hsource hdest hreach
    have hstore : ((backend e).copy wire source dest).store = _ := hrun.store
    refine ⟨count, request e (copyRequest sourceUrl url), request e (headRequest url),
      ⟨rfl, rfl, request_copySource e sourceUrl url⟩, ⟨rfl, rfl⟩, ?_, hrun.ends⟩
    rw [hstore]
    exact copySends wire _ _ count

section Sample

open Endpoint

def copyAnswer (status : Nat) (state : String) : Answer :=
  .response ⟨status, [("x-ms-copy-status", state)], []⟩

-- A copy that is pending twice, fails then, and leaves an answer to nothing.
def failingCopy : List Answer :=
  [copyAnswer 202 "pending", copyAnswer 200 "pending", copyAnswer 200 "failed",
    copyAnswer 200 "success"]

theorem failingCopy_direct : ∀ r, .response r ∈ failingCopy → r.isRedirect = false := by
  intro r hr
  simp only [failingCopy, copyAnswer, List.mem_cons, Answer.response.injEq, List.not_mem_nil,
    or_false] at hr
  rcases hr with rfl | rfl | rfl | rfl <;> rfl

def otherAddress : Url := { localService.base with path := .segments ["releases", "other"] }

theorem localService_otherUrl : localService.blobUrl "other" = .ok otherAddress := rfl

theorem copy_polls_failing :
    ((backend localService).copy (ready failingCopy) "blob" "other").result =
        .error (.copyFailed "other" "failed") ∧
      ((backend localService).copy (ready failingCopy) "blob" "other").store.received.map (·.method) =
        ["PUT", "HEAD", "HEAD"] ∧
      ((backend localService).copy (ready failingCopy) "blob" "other").store.answers =
        [copyAnswer 200 "success"] := by
  have hreach : Reachable localService otherAddress (ready failingCopy) :=
    ⟨by decide +kernel, by decide +kernel, by decide +kernel, rfl⟩
  obtain ⟨count, start, check, ⟨hput, hstart, -⟩, ⟨hhead, hcheck⟩, hsends, hends⟩ :=
    ((copy_polls localService "blob" "other" (ready failingCopy)).2 blobAddress otherAddress
      localService_blobUrl localService_otherUrl).2 hreach
  obtain ⟨hstore, hfirst, hnext⟩ := hsends.direct failingCopy_direct
  rw [hstart] at hfirst
  rw [hcheck] at hnext
  have hpending : copyStates localService "blob" "other"
      (copyOutcomes (ready failingCopy) start check) 0 = .ok (some "pending") := by
    rw [copyStates, hfirst]
    exact ok_of_toOption (by decide +kernel)
  have hstill : copyStates localService "blob" "other"
      (copyOutcomes (ready failingCopy) start check) 1 = .ok (some "pending") := by
    rw [copyStates, hnext]
    exact ok_of_toOption (by decide +kernel)
  have hfailed : copyStates localService "blob" "other"
      (copyOutcomes (ready failingCopy) start check) 2 = .ok (some "failed") := by
    rw [copyStates, hnext]
    exact ok_of_toOption (by decide +kernel)
  have hcount : count = 2 := by
    rcases Nat.lt_trichotomy count 2 with hlt | heq | hgt
    · obtain rfl | rfl : count = 0 ∨ count = 1 := by omega
      · exact absurd hpending hends.settled
      · exact absurd hstill hends.settled
    · exact heq
    · have hother := hends.pending 2 hgt
      rw [hfailed] at hother
      exact absurd (Except.ok.inj hother) (by decide)
  subst hcount
  refine ⟨(hends.failed "failed").mpr ⟨hfailed, .inr rfl⟩, ?_, ?_⟩
  · rw [hstore]
    simp only [ready, List.nil_append, List.map_cons, List.map_replicate, hput, hhead]
    rfl
  · rw [hstore]
    rfl

-- Answers that send a copy to look for its answer elsewhere.
def redirectedCopy : Wire :=
  ready [.response ⟨303, [("location", "http://blob.local/releases/other")], []⟩,
    .response ⟨200, [], []⟩]

-- Such a copy ends well, and nothing was copied.
theorem copy_redirected :
    ((backend localService).copy redirectedCopy "blob" "other").result = .ok () ∧
      ((backend localService).copy redirectedCopy "blob" "other").store.received.map (·.method) =
        ["PUT", "GET"] := by
  have hreach : Reachable localService (copyRequest blobAddress otherAddress).url redirectedCopy :=
    ⟨by decide +kernel, by decide +kernel, by decide +kernel, rfl⟩
  have houtcome : (redirectedCopy.course
      (request localService (copyRequest blobAddress otherAddress))).outcome =
        .ok ⟨200, [], []⟩ := ok_of_toOption (by decide +kernel)
  have honward : (redirectedCopy.course
      (request localService (copyRequest blobAddress otherAddress))).onward.map (·.method) =
        ["GET"] := by decide +kernel
  obtain ⟨count, hrun⟩ := copy_run localService_blobUrl localService_otherUrl hreach
  have hstate : copyStates localService "blob" "other"
      (copyOutcomes redirectedCopy (request localService (copyRequest blobAddress otherAddress))
        (request localService (headRequest otherAddress))) 0 = .ok none := by
    rw [copyStates, copyOutcomes, houtcome]
    rfl
  have hcount : count = 0 := by
    refine Nat.eq_zero_of_not_pos fun hpos => ?_
    rw [hrun.pending 0 hpos] at hstate
    exact nomatch hstate
  subst hcount
  rw [backend_copy, hrun.result, hrun.store, hstate, Wire.polls, Wire.behind, List.map_append,
    List.map_cons, honward]
  exact ⟨rfl, rfl⟩

end Sample

end Service

end BlobStorage
