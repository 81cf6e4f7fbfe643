import BlobStorage.Proofs.Client.Paging
import BlobStorage.Proofs.Text.Utf8

-- A store in memory under any faults: every call is noted, whatever comes of it; one that fails
-- changes no blob, and one that succeeds at most the blob that it is about.
namespace BlobStorage.Memory

-- What a store is asked for. An upload's source gives what reading it gave, and the destination of a
-- download is an open file among others.
inductive Request where
  | upload (key : String) (source : Except Files.Problem Bytes)
  | download (key : String) (handle : Files.Handle) (files : Files)
  | remove (key : String)
  | properties (key : String)
  | signedUrl (key : String) (permissions : Permissions) (expiry : Instant)
  | page (under marker : Option String)
  | copy (source dest : String)

inductive Answer where
  | stored (checksum : Checksum)
  | received (size : Nat)
  | done
  | found (properties : Properties)
  | signed (url : Url)
  | listed (page : Page)

def answered {α : Type} (reply : Reply Store α) (answer : α → Except Failure Answer) :
    Except Failure Answer × Store :=
  (reply.result.bind answer, reply.store)

namespace Request

-- The call that is noted. A listing of everything has the empty text for its key.
def call : Request → Call
  | upload key _ => ⟨.upload, key⟩
  | download key _ _ => ⟨.download, key⟩
  | remove key => ⟨.delete, key⟩
  | properties key => ⟨.getProperties, key⟩
  | signedUrl key _ _ => ⟨.signedUrl, key⟩
  | page under _ => ⟨.listPage, under.getD ""⟩
  | copy source _ => ⟨.copy, source⟩

-- The blob that may change.
def target? : Request → Option String
  | upload key _ => some key
  | remove key => some key
  | copy _ dest => some dest
  | _ => none

-- What is there instead when the request has succeeded.
def written? (catalog : Catalog) : Request → Option Bytes
  | upload _ source => source.toOption
  | copy source _ => catalog.content? source
  | _ => none

-- What the backend gives. A download has succeeded when the file has been written.
def perform (settings : Settings) (now : Instant) (store : Store) :
    Request → Except Failure Answer × Store
  | upload key source =>
    answered ((backend settings now).upload store key source) fun checksum => .ok (.stored checksum)
  | download key handle files =>
    answered ((backend settings now).download store key) fun delivery =>
      (Client.receive delivery handle ⟨store, files, []⟩).1.map .received
  | remove key => answered ((backend settings now).remove store key) fun _ => .ok .done
  | properties key =>
    answered ((backend settings now).properties store key) fun found => .ok (.found found)
  | signedUrl key permissions expiry =>
    answered ((backend settings now).signedUrl store key permissions expiry) fun url =>
      .ok (.signed url)
  | page under marker =>
    answered ((backend settings now).page store under marker) fun page => .ok (.listed page)
  | copy source dest => answered ((backend settings now).copy store source dest) fun _ => .ok .done

end Request

-- What is certain of one request, whatever comes of it. The first fault that hits its call decides,
-- and those that do not hit it do not matter.
structure Recorded (settings : Settings) (now : Instant) (store : Store) (request : Request)
    (outcome : Except Failure Answer × Store) : Prop where
  calls : outcome.2.calls = store.calls ++ [request.call]
  callsTo : ∀ operation, outcome.2.callsTo operation =
    store.callsTo operation ++ (if request.call.operation = operation then [request.call.key] else [])
  injected : ∀ before fault behind, settings.faults = before ++ fault :: behind →
    fault.hits request.call = true → (∀ other ∈ before, other.hits request.call = false) →
    outcome.1 = .error (fault.failure request.call.key)
  spared : (∀ fault ∈ settings.faults, fault.hits request.call = false) →
    outcome = request.perform { settings with faults := [] } now store
  failed : ∀ failure, outcome.1 = .error failure → outcome.2.catalog = store.catalog
  done : ∀ answer, outcome.1 = .ok answer → ∀ name, outcome.2.catalog.content? name =
    if request.target? = some name then request.written? store.catalog
    else store.catalog.content? name

section Faults

variable {settings : Settings} {call : Call}

theorem faultOf?_of_first {before behind : List Fault} {fault : Fault}
    (hfaults : settings.faults = before ++ fault :: behind) (hhits : fault.hits call = true)
    (hbefore : ∀ other ∈ before, other.hits call = false) : faultOf? settings call = some fault :=
  List.find?_eq_some_iff_append.mpr
    ⟨hhits, before, behind, hfaults, fun other hother => by rw [hbefore other hother]; rfl⟩

theorem faultOf?_eq_none_iff :
    faultOf? settings call = none ↔ ∀ fault ∈ settings.faults, fault.hits call = false := by
  simp only [faultOf?, List.find?_eq_none, Bool.not_eq_true]

end Faults

section Effects

-- An effect, and an answer made of what it gives, that treat the blobs as a request has to.
structure Careful {α : Type} (effect : Effect α) (answer : α → Except Failure Answer)
    (catalog : Catalog) (request : Request) : Prop where
  failed : ∀ failure, (effect catalog).1.bind answer = .error failure → (effect catalog).2 = catalog
  done : ∀ value, (effect catalog).1.bind answer = .ok value → ∀ name,
    (effect catalog).2.content? name =
      if request.target? = some name then request.written? catalog else catalog.content? name

variable {α : Type} {effect : Effect α} {answer : α → Except Failure Answer} {catalog : Catalog}
  {request : Request}

theorem careful_look (read : Catalog → Except Failure α) (h : request.target? = none) :
    Careful (look read) answer catalog request where
  failed := fun _ _ => rfl
  done := fun _ _ name => by
    rw [h, if_neg nofun]
    rfl

theorem careful_of_error {failure : Failure} (h : effect catalog = (.error failure, catalog)) :
    Careful effect answer catalog request where
  failed := fun _ _ => by rw [h]
  done := fun _ hok => by
    rw [h] at hok
    exact nomatch hok

theorem careful_of_ok {value : α} {after : Catalog} {told : Answer}
    (h : effect catalog = (.ok value, after)) (htold : answer value = .ok told)
    (hcontent : ∀ name, after.content? name =
      if request.target? = some name then request.written? catalog else catalog.content? name) :
    Careful effect answer catalog request where
  failed := fun _ herror => by
    rw [h] at herror
    exact absurd (htold.symm.trans herror) nofun
  done := fun _ _ name => by rw [h, hcontent]

theorem careful_upload (settings : Settings) (key : String) (source : Except Files.Problem Bytes) :
    Careful (upload settings key source) (fun checksum => .ok (.stored checksum)) catalog
      (.upload key source) := by
  cases source with
  | error problem => exact careful_of_error rfl
  | ok content =>
    refine careful_of_ok rfl rfl fun name => ?_
    simp only [Catalog.content?_put, Request.target?, Option.some.injEq, eq_comm (a := name)]
    rfl

theorem careful_remove (key : String) :
    Careful (remove key) (fun _ => .ok .done) catalog (.remove key) := by
  cases hblob : catalog.content? key with
  | none =>
    have h : remove key catalog = (.error (.blobNotFound key), catalog) := by
      simp only [remove, present, hblob]
    exact careful_of_error h
  | some content =>
    have h : remove key catalog = (.ok (), catalog.erase key) := by
      simp only [remove, present, hblob]
    refine careful_of_ok h rfl fun name => ?_
    simp only [Catalog.content?_erase, Request.target?, Option.some.injEq, eq_comm (a := name)]
    rfl

theorem careful_copy (source dest : String) :
    Careful (copy source dest) (fun _ => .ok .done) catalog (.copy source dest) := by
  cases hblob : catalog.content? source with
  | none =>
    have h : copy source dest catalog = (.error (.blobNotFound source), catalog) := by
      simp only [copy, present, hblob]
    exact careful_of_error h
  | some content =>
    have h : copy source dest catalog = (.ok (), catalog.put dest content) := by
      simp only [copy, present, hblob]
    refine careful_of_ok h rfl fun name => ?_
    simp only [Catalog.content?_put, Request.target?, Request.written?, hblob, Option.some.injEq,
      eq_comm (a := name)]

end Effects

section Step

variable {settings : Settings} {now : Instant} {store : Store}

theorem callsTo_append (catalog : Catalog) (call : Call) (operation : Operation) :
    Store.callsTo ⟨catalog, store.calls ++ [call]⟩ operation =
      store.callsTo operation ++
        (if call.operation = operation then [call.key] else []) := by
  rw [Store.callsTo, List.filter_append, List.map_append, ← Store.callsTo]
  by_cases h : call.operation = operation
  · rw [if_pos h, List.filter_cons_of_pos (by simpa using h)]
    rfl
  · rw [if_neg h, List.filter_cons_of_neg (by simpa using h)]
    rfl

-- A request whose reply is that of its call, entered with an effect. The same has to hold without
-- faults.
theorem recorded_of_enter {α : Type} {request : Request} {effect : Effect α}
    {answer : α → Except Failure Answer}
    (hperform : request.perform settings now store =
      answered (enter settings store request.call effect) answer)
    (hspared : request.perform { settings with faults := [] } now store =
      answered (enter { settings with faults := [] } store request.call effect) answer)
    (hcareful : Careful effect answer store.catalog request) :
    Recorded settings now store request (request.perform settings now store) := by
  rw [hperform]
  cases hfault : faultOf? settings request.call with
  | some fault =>
    rw [enter_of_hit _ _ hfault]
    exact {
      calls := rfl
      callsTo := fun operation => callsTo_append _ _ operation
      injected := fun before first behind hfaults hhits hbefore => by
        rw [faultOf?_of_first hfaults hhits hbefore] at hfault
        cases hfault
        rfl
      spared := fun hnone => by
        rw [faultOf?_eq_none_iff.mpr hnone] at hfault
        exact nomatch hfault
      failed := fun _ _ => rfl
      done := fun _ hok => nomatch hok }
  | none =>
    rw [enter_of_unhit _ _ hfault]
    exact {
      calls := rfl
      callsTo := fun operation => callsTo_append _ _ operation
      injected := fun before first behind hfaults hhits hbefore => by
        rw [faultOf?_of_first hfaults hhits hbefore] at hfault
        exact nomatch hfault
      spared := fun _ => by
        rw [hspared, enter_of_unhit store effect rfl]
      failed := hcareful.failed
      done := hcareful.done }

-- One step: every operation keeps to the record, with any faults and in any store.
theorem perform_recorded (settings : Settings) (now : Instant) (store : Store) (request : Request) :
    Recorded settings now store request (request.perform settings now store) := by
  cases request with
  | upload key source => exact recorded_of_enter rfl rfl (careful_upload settings key source)
  | download key handle files => exact recorded_of_enter rfl rfl (careful_look _ rfl)
  | remove key => exact recorded_of_enter rfl rfl (careful_remove key)
  | properties key => exact recorded_of_enter rfl rfl (careful_look _ rfl)
  | signedUrl key permissions expiry => exact recorded_of_enter rfl rfl (careful_look _ rfl)
  | page under marker => exact recorded_of_enter rfl rfl (careful_look _ rfl)
  | copy source dest => exact recorded_of_enter rfl rfl (careful_copy source dest)

end Step

-- What a test does with a store: blobs are put in place, or something is asked for.
inductive Action where
  | insert (key : String) (content : Bytes)
  | ask (request : Request)

namespace Action

def call? : Action → Option Call
  | insert _ _ => none
  | ask request => some request.call

def act (settings : Settings) (now : Instant) (store : Store) : Action → Store
  | insert key content => store.insert key content
  | ask request => (request.perform settings now store).2

def run (settings : Settings) (now : Instant) (store : Store) (actions : List Action) : Store :=
  actions.foldl (act settings now) store

end Action

section Run

variable (settings : Settings) (now : Instant)

theorem act_calls (store : Store) (action : Action) :
    (action.act settings now store).calls = store.calls ++ action.call?.toList := by
  cases action with
  | insert key content => exact (List.append_nil _).symm
  | ask request => exact (perform_recorded settings now store request).calls

theorem run_calls (store : Store) (actions : List Action) :
    (Action.run settings now store actions).calls =
      store.calls ++ actions.filterMap Action.call? := by
  induction actions generalizing store with
  | nil => exact (List.append_nil _).symm
  | cons action actions ih =>
    rw [Action.run, List.foldl_cons, ← Action.run, ih, act_calls, List.append_assoc]
    cases h : action.call? with
    | none => rw [List.filterMap_cons_none h, Option.toList_none, List.nil_append]
    | some call => rw [List.filterMap_cons_some h, Option.toList_some, List.singleton_append]

theorem keys_utf8_ascending (catalog : Catalog) :
    catalog.keys.Pairwise fun key other => Text.utf8 key < Text.utf8 other :=
  catalog.keys_ascending.imp Text.utf8_lt_utf8.mpr

theorem keys_nodup (catalog : Catalog) : catalog.keys.Nodup :=
  catalog.keys_ascending.imp fun h => String.ne_of_lt h

-- A store that was reached in any way has noted just what it was asked for, its names are those of a
-- sorted map, and it keeps to the record with whatever it is asked for next.
theorem reached_recorded (actions : List Action) (request : Request) :
    let store := Action.run settings now .empty actions
    store.calls = actions.filterMap Action.call? ∧
      (∀ operation, store.callsTo operation =
        ((actions.filterMap Action.call?).filter (·.operation = operation)).map (·.key)) ∧
      (store.catalog.keys.Pairwise fun key other => Text.utf8 key < Text.utf8 other) ∧
      store.catalog.keys.Nodup ∧
      Recorded settings now store request (request.perform settings now store) := by
  intro store
  have hcalls : store.calls = actions.filterMap Action.call? := run_calls settings now .empty actions
  refine ⟨hcalls, fun operation => ?_, keys_utf8_ascending store.catalog, keys_nodup store.catalog,
    perform_recorded settings now store request⟩
  rw [Store.callsTo, hcalls]
  rfl

end Run

end BlobStorage.Memory
