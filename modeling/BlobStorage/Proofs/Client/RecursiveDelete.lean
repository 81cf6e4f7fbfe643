import BlobStorage.Proofs.Client.Paging
import BlobStorage.Proofs.Text.Utf8
import Mathlib.Data.List.Sort

-- Deleting everything under a text, over a store with faults: every name is tried once, and exactly
-- the failures are told.
namespace BlobStorage.Memory

section Faults

variable (settings : Settings)

-- What goes wrong when a name is deleted. A fault may say that the blob does not exist, and then the
-- client takes it for deleted.
def deleteFailure? (key : String) : Option Failure :=
  ((faultOf? settings ⟨.delete, key⟩).map (·.failure key)).filter (!·.isNotFound)

def deleteFailures (keys : List String) : List (String × Failure) :=
  keys.filterMap fun key => (deleteFailure? settings key).map (key, ·)

end Faults

section Delete

variable {settings : Settings} (now : Instant) (policy : SignPolicy) (s : Session Store)

theorem delete_of_hit {key : String} {fault : Fault}
    (h : faultOf? settings ⟨.delete, key⟩ = some fault) :
    (Client.delete ⟨backend settings now, policy⟩ key s).1 =
        (if (fault.failure key).isNotFound then .ok () else .error (fault.failure key)) ∧
      (Client.delete ⟨backend settings now, policy⟩ key s).2.store =
        ⟨s.store.catalog, s.store.calls ++ [⟨.delete, key⟩]⟩ ∧
      (Client.delete ⟨backend settings now, policy⟩ key s).2.files = s.files := by
  simp only [Client.delete, backend, Session.call, enter_of_hit _ _ h]
  split <;> exact ⟨rfl, rfl, rfl⟩

theorem delete_of_unhit {key : String} (h : faultOf? settings ⟨.delete, key⟩ = none) :
    (Client.delete ⟨backend settings now, policy⟩ key s).1 = .ok () ∧
      (Client.delete ⟨backend settings now, policy⟩ key s).2.store.catalog.content? =
        Function.update s.store.catalog.content? key none ∧
      (Client.delete ⟨backend settings now, policy⟩ key s).2.store.calls =
        s.store.calls ++ [⟨.delete, key⟩] ∧
      (Client.delete ⟨backend settings now, policy⟩ key s).2.files = s.files := by
  simp only [Client.delete, backend, Session.call, enter_of_unhit _ _ h]
  cases hblob : s.store.catalog.content? key with
  | none =>
    simp only [remove, present, hblob, Failure.isNotFound, if_true, Session.note]
    refine ⟨trivial, ?_, trivial, trivial⟩
    rw [← hblob, Function.update_eq_self]
  | some content =>
    simp only [remove, present, hblob]
    exact ⟨trivial, Catalog.content?_erase_eq _ _, trivial, trivial⟩

variable (settings)

-- One step of the loop, whatever happens to the name.
theorem delete_outcome (key : String) :
    (Client.delete ⟨backend settings now, policy⟩ key s).1 =
        (match deleteFailure? settings key with
          | none => .ok ()
          | some failure => .error failure) ∧
      (∀ name, (Client.delete ⟨backend settings now, policy⟩ key s).2.store.catalog.content? name =
        if name = key ∧ faultOf? settings ⟨.delete, key⟩ = none then none
        else s.store.catalog.content? name) ∧
      (Client.delete ⟨backend settings now, policy⟩ key s).2.store.calls =
        s.store.calls ++ [⟨.delete, key⟩] ∧
      (Client.delete ⟨backend settings now, policy⟩ key s).2.files = s.files := by
  cases hfault : faultOf? settings ⟨.delete, key⟩ with
  | none =>
    obtain ⟨hresult, hcontent, hcalls, hfiles⟩ := delete_of_unhit now policy s hfault
    refine ⟨?_, ?_, hcalls, hfiles⟩
    · simp only [hresult, deleteFailure?, hfault, Option.map_none, Option.filter_none]
    · intro name
      simp [hcontent, Function.update_apply]
  | some fault =>
    obtain ⟨hresult, hstore, hfiles⟩ := delete_of_hit now policy s hfault
    refine ⟨?_, by simp [hstore], by rw [hstore], hfiles⟩
    by_cases habsent : (fault.failure key).isNotFound = true
    · simp [hresult, deleteFailure?, hfault, Option.filter_some, habsent]
    · simp [hresult, deleteFailure?, hfault, Option.filter_some, habsent]

theorem deleteAll_outcome (keys : List String) :
    (Client.deleteAll ⟨backend settings now, policy⟩ keys s).1 = deleteFailures settings keys ∧
      (∀ name, (Client.deleteAll ⟨backend settings now, policy⟩ keys s).2.store.catalog.content?
          name =
        if name ∈ keys ∧ faultOf? settings ⟨.delete, name⟩ = none then none
        else s.store.catalog.content? name) ∧
      (Client.deleteAll ⟨backend settings now, policy⟩ keys s).2.store.calls =
        s.store.calls ++ keys.map (⟨.delete, ·⟩) ∧
      (Client.deleteAll ⟨backend settings now, policy⟩ keys s).2.files = s.files := by
  induction keys generalizing s with
  | nil => simp [Client.deleteAll, deleteFailures]
  | cons key keys ih =>
    obtain ⟨hresult, hcontent, hcalls, hfiles⟩ := delete_outcome settings now policy s key
    -- a blob that is gone after this step stays gone, and one that stays is the next steps' matter
    have hboth : ∀ name, (if name ∈ keys ∧ faultOf? settings ⟨.delete, name⟩ = none then none
          else if name = key ∧ faultOf? settings ⟨.delete, key⟩ = none then none
          else s.store.catalog.content? name) =
        if name ∈ key :: keys ∧ faultOf? settings ⟨.delete, name⟩ = none then none
        else s.store.catalog.content? name := by
      intro name
      by_cases hname : name = key
      · subst hname
        by_cases hfault : faultOf? settings ⟨.delete, name⟩ = none <;> simp [hfault]
      · simp [hname]
    cases hdelete : Client.delete ⟨backend settings now, policy⟩ key s with
    | mk result after =>
      rw [hdelete] at hresult hcontent hcalls hfiles
      simp only at hresult hcontent hcalls hfiles
      cases hfailure : deleteFailure? settings key with
      | none =>
        simp only [hfailure] at hresult
        subst hresult
        obtain ⟨hrest, hcontent', hcalls', hfiles'⟩ := ih after
        simp only [Client.deleteAll, hdelete]
        refine ⟨?_, fun name => ?_, ?_, hfiles'.trans hfiles⟩
        · simp [hrest, deleteFailures, hfailure]
        · rw [hcontent', hcontent, hboth]
        · simp [hcalls', hcalls]
      | some failure =>
        simp only [hfailure] at hresult
        subst hresult
        obtain ⟨hrest, hcontent', hcalls', hfiles'⟩ := ih (after.note (Client.undeleted key failure))
        simp only [Client.deleteAll, hdelete]
        refine ⟨?_, fun name => ?_, ?_, hfiles'.trans hfiles⟩
        · simp [hrest, deleteFailures, hfailure]
        · rw [hcontent', Session.note_store, hcontent, hboth]
        · simp [hcalls', hcalls, Session.note_store]

end Delete

section DeleteRecursive

variable (settings : Settings) (now : Instant) (policy : SignPolicy) (under : String)
  (s : Session Store)

-- A listing that fails ends it all.
structure DeletesNothing (fault : Fault) : Prop where
  result : (Client.deleteRecursive ⟨backend settings now, policy⟩ under s).1 =
    .error (fault.failure under)
  calls : (Client.deleteRecursive ⟨backend settings now, policy⟩ under s).2.store.calls =
    s.store.calls ++ [⟨.listPage, under⟩]
  catalog : (Client.deleteRecursive ⟨backend settings now, policy⟩ under s).2.store.catalog =
    s.store.catalog
  files : (Client.deleteRecursive ⟨backend settings now, policy⟩ under s).2.files = s.files

-- All names are tried, and blobs stay that a fault protects.
structure DeletesAll (keys : List String) : Prop where
  ascending : keys.Pairwise fun a b => Text.utf8 a < Text.utf8 b
  mem_keys : ∀ key, key ∈ keys ↔ (s.store.catalog.content? key).isSome ∧ under.toList <+: key.toList
  calls : (Client.deleteRecursive ⟨backend settings now, policy⟩ under s).2.store.calls =
    s.store.calls ++ List.replicate (pageCount settings.pageSize keys.length) ⟨.listPage, under⟩ ++
      keys.map (⟨.delete, ·⟩)
  content : ∀ name,
    (Client.deleteRecursive ⟨backend settings now, policy⟩ under s).2.store.catalog.content? name =
      if under.toList <+: name.toList ∧ faultOf? settings ⟨.delete, name⟩ = none then none
      else s.store.catalog.content? name
  result : (Client.deleteRecursive ⟨backend settings now, policy⟩ under s).1 =
    if deleteFailures settings keys = [] then .ok ()
    else .error (.deletesFailed under (deleteFailures settings keys))
  files : (Client.deleteRecursive ⟨backend settings now, policy⟩ under s).2.files = s.files

variable {settings under}

theorem deletesNothing {fault : Fault} (h : faultOf? settings ⟨.listPage, under⟩ = some fault) :
    DeletesNothing settings now policy under s fault := by
  obtain ⟨hresult, hstore, hfiles⟩ := list_of_hit now policy s h
  cases hlist : Client.list ⟨backend settings now, policy⟩ under s with
  | mk result listed =>
    rw [hlist] at hresult hstore hfiles
    simp only at hresult hstore hfiles
    subst hresult
    constructor <;> simp only [Client.deleteRecursive, hlist, hstore, hfiles]

theorem deletesAll (h : faultOf? settings ⟨.listPage, under⟩ = none)
    (hsize : settings.pageSize < Text.word64)
    (hcount : 2 * s.store.catalog.keys.length ≤ Text.word64) :
    DeletesAll settings now policy under s (s.store.catalog.keysUnder under) := by
  obtain ⟨hnames, hstore, hfiles⟩ := list_of_unhit now policy s h hsize hcount
  cases hlist : Client.list ⟨backend settings now, policy⟩ under s with
  | mk result listed =>
    rw [hlist] at hnames hstore hfiles
    simp only at hnames hstore hfiles
    subst hnames
    obtain ⟨hfailures, hcontent, hcalls, hfiles'⟩ := deleteAll_outcome settings now policy
      (listed.note (Client.deleting under (s.store.catalog.keysUnder under)))
      (s.store.catalog.keysUnder under)
    rw [Session.note_store, hstore] at hcalls
    simp only [Session.note_store, hstore] at hcontent
    cases hdelete : Client.deleteAll ⟨backend settings now, policy⟩
        (s.store.catalog.keysUnder under)
        (listed.note (Client.deleting under (s.store.catalog.keysUnder under))) with
    | mk failures after =>
      rw [hdelete] at hfailures hcontent hcalls hfiles'
      simp only at hfailures hcontent hcalls hfiles'
      have hafter : Client.deleteRecursive ⟨backend settings now, policy⟩ under s =
          (if failures = [] then .ok () else .error (.deletesFailed under failures), after) := by
        simp only [Client.deleteRecursive, hlist, hdelete]
        cases failures <;> rfl
      refine ⟨(s.store.catalog.keysUnder_ascending under).imp Text.utf8_lt_utf8.mpr,
        fun key => s.store.catalog.mem_keysUnder, by rw [hafter, hcalls], fun name => ?_,
        by rw [hafter, hfailures], by rw [hafter, hfiles', Session.note_files, hfiles]⟩
      rw [hafter, hcontent]
      by_cases hblob : (s.store.catalog.content? name).isSome = true
      · simp only [s.store.catalog.mem_keysUnder, hblob, true_and]
      · have hnone := Option.not_isSome_iff_eq_none.mp hblob
        simp only [hnone, ite_self]

-- Over a store with any faults and pages of any size, zero counting as one. A word can count the
-- names twice over, as it can those of any memory that it addresses.
theorem deleteRecursive_outcome (settings : Settings) (size : UInt64) (now : Instant)
    (policy : SignPolicy) (under : String) (s : Session Store)
    (hcount : 2 * s.store.catalog.keys.length ≤ Text.word64) :
    (∀ fault, faultOf? settings ⟨.listPage, under⟩ = some fault →
      DeletesNothing (settings.withPageSize size.toNat) now policy under s fault) ∧
    (faultOf? settings ⟨.listPage, under⟩ = none →
      ∃ keys, DeletesAll (settings.withPageSize size.toNat) now policy under s keys) := by
  refine ⟨fun fault h => deletesNothing now policy s h, fun h => ?_⟩
  have hsize : (settings.withPageSize size.toNat).pageSize < Text.word64 := by
    have hlt := size.toNat_lt
    simp only [Settings.withPageSize, Text.word64]
    omega
  exact ⟨_, deletesAll now policy s h hsize hcount⟩

section Sample

-- Of three blobs one is protected, and one is said to be absent although it is there.
def protective : Settings where
  pageSize := 2
  faults := [⟨.delete, some "a/1", fun key => .forbidden ("denied " ++ key)⟩,
    ⟨.delete, some "a/2", .blobNotFound⟩, ⟨.listPage, some "b", fun _ => .conflict "busy"⟩]

def threeBlobs : Session Store :=
  ⟨⟨((Catalog.empty.put "a/1" [1]).put "a/2" [2]).put "a/3" [3], []⟩, .empty, []⟩

theorem deleteRecursive_protected :
    2 * threeBlobs.store.catalog.keys.length ≤ Text.word64 ∧ ∃ keys,
      keys = ["a/1", "a/2", "a/3"] ∧ pageCount 2 keys.length = 2 ∧
      deleteFailures protective keys = [("a/1", .forbidden "denied a/1")] ∧
      DeletesAll (protective.withPageSize 2) (.ofSeconds 0) .standard "a/" threeBlobs keys := by
  have hcount : 2 * threeBlobs.store.catalog.keys.length ≤ Text.word64 := by decide +kernel
  obtain ⟨keys, hkeys⟩ := (deleteRecursive_outcome protective 2 (.ofSeconds 0) .standard "a/"
    threeBlobs hcount).2 rfl
  have hunder : threeBlobs.store.catalog.keysUnder "a/" = ["a/1", "a/2", "a/3"] := by decide +kernel
  have hlt := hkeys.ascending.imp Text.utf8_lt_utf8.mp
  have heq : keys = ["a/1", "a/2", "a/3"] := by
    rw [← hunder]
    exact hlt.eq_of_mem_iff (threeBlobs.store.catalog.keysUnder_ascending "a/") fun key =>
      (hkeys.mem_keys key).trans threeBlobs.store.catalog.mem_keysUnder.symm
  refine ⟨hcount, keys, heq, ?_, ?_, hkeys⟩
  · rw [heq]
    rfl
  · rw [heq]
    rfl

end Sample

end DeleteRecursive

end BlobStorage.Memory
