import BlobStorage.Client
import BlobStorage.Proofs.Digest.Pieces
import BlobStorage.Proofs.Store.Catalog

-- Putting a file: it is verified or taken back, over any backend.
namespace BlobStorage

namespace Backend

variable {σ : Type}

inductive Call where
  | upload (key : String) (source : Except Files.Problem Bytes)
  | download (key : String)
  | remove (key : String)
  | properties (key : String)
  | signedUrl (key : String) (permissions : Permissions) (expiry : Instant)
  | page (under marker : Option String)
  | copy (source dest : String)

def recorded {α : Type} (call : Call) (operation : σ → Reply σ α) (s : σ × List Call) :
    Reply (σ × List Call) α :=
  let reply := operation s.1
  ⟨reply.result, reply.events, reply.store, s.2 ++ [call]⟩

-- The same backend, with its calls noted.
def recording (b : Backend σ) : Backend (σ × List Call) where
  now := b.now
  upload := fun s key source => recorded (.upload key source) (b.upload · key source) s
  download := fun s key => recorded (.download key) (b.download · key) s
  remove := fun s key => recorded (.remove key) (b.remove · key) s
  properties := fun s key => recorded (.properties key) (b.properties · key) s
  signedUrl := fun s key permissions expiry =>
    recorded (.signedUrl key permissions expiry) (b.signedUrl · key permissions expiry) s
  page := fun s under marker => recorded (.page under marker) (b.page · under marker) s
  copy := fun s source dest => recorded (.copy source dest) (b.copy · source dest) s
  pagesLeft := fun s => b.pagesLeft s.1
  pagesLeft_lt := fun s => b.pagesLeft_lt s.1

end Backend

namespace Client

section Put

variable {σ : Type} (b : Backend σ) (policy : SignPolicy) {path : String} (key : String)
  (s : Session σ)

theorem takeBack_store : (takeBack ⟨b, policy⟩ key s).store = (b.remove s.store key).store := by
  rw [takeBack, Session.call]
  cases (b.remove s.store key).result <;> rfl

theorem takeBack_files : (takeBack ⟨b, policy⟩ key s).files = s.files := by
  rw [takeBack, Session.call]
  cases (b.remove s.store key).result <;> rfl

theorem put_of_problem {problem : Files.Problem} (hread : s.files.read path = .error problem) :
    put ⟨b, policy⟩ path key s = (.error (.io problem), s) := by
  rw [put, hread]

variable {content : Bytes} (hread : s.files.read path = .ok content)
include hread

theorem put_of_failure {failure : Failure}
    (h : (b.upload s.store key (.ok content)).result = .error failure) :
    (put ⟨b, policy⟩ path key s).1 = .error failure ∧
      (put ⟨b, policy⟩ path key s).2.store = (b.upload s.store key (.ok content)).store ∧
      (put ⟨b, policy⟩ path key s).2.files = s.files := by
  simp only [put, hread, Session.call, h]
  exact ⟨trivial, trivial, trivial⟩

theorem put_of_same
    (h : (b.upload s.store key (.ok content)).result = .ok (Checksum.compute content)) :
    (put ⟨b, policy⟩ path key s).1 = .ok () ∧
      (put ⟨b, policy⟩ path key s).2.store = (b.upload s.store key (.ok content)).store ∧
      (put ⟨b, policy⟩ path key s).2.files = s.files := by
  simp only [put, hread, Session.call, h, Checksum.ofFile_eq, if_true]
  exact ⟨trivial, rfl, rfl⟩

theorem put_of_other {there : Checksum}
    (h : (b.upload s.store key (.ok content)).result = .ok there)
    (hne : there ≠ Checksum.compute content) :
    (put ⟨b, policy⟩ path key s).1 =
        .error (.checksumMismatch (Checksum.compute content) there) ∧
      (put ⟨b, policy⟩ path key s).2.store =
        (b.remove (b.upload s.store key (.ok content)).store key).store ∧
      (put ⟨b, policy⟩ path key s).2.files = s.files := by
  simp only [put, hread, Session.call, h, Checksum.ofFile_eq, if_neg (Ne.symm hne)]
  exact ⟨trivial, takeBack_store b policy key _, takeBack_files b policy key _⟩

theorem put_ok_iff :
    (put ⟨b, policy⟩ path key s).1 = .ok () ↔
      (b.upload s.store key (.ok content)).result = .ok (Checksum.compute content) := by
  constructor
  · intro h
    cases hupload : (b.upload s.store key (.ok content)).result with
    | error failure =>
      rw [(put_of_failure b policy key s hread hupload).1] at h
      exact nomatch h
    | ok there =>
      by_cases heq : there = Checksum.compute content
      · rw [heq]
      · rw [(put_of_other b policy key s hread hupload heq).1] at h
        exact nomatch h
  · intro h
    exact (put_of_same b policy key s hread h).1

end Put

section Traced

variable {σ : Type} (b : Backend σ) (policy : SignPolicy) (path key : String) (s : Session σ)

-- What putting a file gives, what it leaves in the store, and which calls it makes.
def putTrace : Except Failure Unit × σ × List Backend.Call :=
  let outcome := put ⟨b.recording, policy⟩ path key ⟨(s.store, []), s.files, s.events⟩
  (outcome.1, outcome.2.store)

-- The ways that putting a file can go.
structure PutTraced : Prop where
  problem : ∀ problem, s.files.read path = .error problem →
    putTrace b policy path key s = (.error (.io problem), s.store, [])
  failure : ∀ content failure, s.files.read path = .ok content →
    (b.upload s.store key (.ok content)).result = .error failure →
    putTrace b policy path key s =
      (.error failure, (b.upload s.store key (.ok content)).store, [.upload key (.ok content)])
  same : ∀ content, s.files.read path = .ok content →
    (b.upload s.store key (.ok content)).result = .ok (Checksum.compute content) →
    putTrace b policy path key s =
      (.ok (), (b.upload s.store key (.ok content)).store, [.upload key (.ok content)])
  other : ∀ content there, s.files.read path = .ok content →
    (b.upload s.store key (.ok content)).result = .ok there → there ≠ Checksum.compute content →
    putTrace b policy path key s =
      (.error (.checksumMismatch (Checksum.compute content) there),
        (b.remove (b.upload s.store key (.ok content)).store key).store,
        [.upload key (.ok content), .remove key])
  untraced : (putTrace b policy path key s).1 = (put ⟨b, policy⟩ path key s).1 ∧
    (putTrace b policy path key s).2.1 = (put ⟨b, policy⟩ path key s).2.store

theorem putTrace_of_problem {problem : Files.Problem} (hread : s.files.read path = .error problem) :
    putTrace b policy path key s = (.error (.io problem), s.store, []) := by
  have hput := put_of_problem b.recording policy key ⟨(s.store, []), s.files, s.events⟩ hread
  rw [putTrace, hput]

section Read

variable {content : Bytes} (hread : s.files.read path = .ok content)
include hread

theorem putTrace_of_failure {failure : Failure}
    (h : (b.upload s.store key (.ok content)).result = .error failure) :
    putTrace b policy path key s =
      (.error failure, (b.upload s.store key (.ok content)).store,
        [.upload key (.ok content)]) := by
  obtain ⟨hresult, hstore, -⟩ :=
    put_of_failure b.recording policy key ⟨(s.store, []), s.files, s.events⟩ hread h
  rw [putTrace, hresult, hstore]
  rfl

theorem putTrace_of_same
    (h : (b.upload s.store key (.ok content)).result = .ok (Checksum.compute content)) :
    putTrace b policy path key s =
      (.ok (), (b.upload s.store key (.ok content)).store, [.upload key (.ok content)]) := by
  obtain ⟨hresult, hstore, -⟩ :=
    put_of_same b.recording policy key ⟨(s.store, []), s.files, s.events⟩ hread h
  rw [putTrace, hresult, hstore]
  rfl

theorem putTrace_of_other {there : Checksum}
    (h : (b.upload s.store key (.ok content)).result = .ok there)
    (hne : there ≠ Checksum.compute content) :
    putTrace b policy path key s =
      (.error (.checksumMismatch (Checksum.compute content) there),
        (b.remove (b.upload s.store key (.ok content)).store key).store,
        [.upload key (.ok content), .remove key]) := by
  obtain ⟨hresult, hstore, -⟩ :=
    put_of_other b.recording policy key ⟨(s.store, []), s.files, s.events⟩ hread h hne
  rw [putTrace, hresult, hstore]
  rfl

end Read

-- Noting the calls changes nothing else.
theorem putTrace_untraced :
    (putTrace b policy path key s).1 = (put ⟨b, policy⟩ path key s).1 ∧
      (putTrace b policy path key s).2.1 = (put ⟨b, policy⟩ path key s).2.store := by
  cases hread : s.files.read path with
  | error problem =>
    rw [putTrace_of_problem b policy path key s hread, put_of_problem b policy key s hread]
    exact ⟨rfl, rfl⟩
  | ok content =>
    cases hupload : (b.upload s.store key (.ok content)).result with
    | error failure =>
      obtain ⟨hresult, hstore, -⟩ := put_of_failure b policy key s hread hupload
      rw [putTrace_of_failure b policy path key s hread hupload, hresult, hstore]
      exact ⟨rfl, rfl⟩
    | ok there =>
      by_cases heq : there = Checksum.compute content
      · subst heq
        obtain ⟨hresult, hstore, -⟩ := put_of_same b policy key s hread hupload
        rw [putTrace_of_same b policy path key s hread hupload, hresult, hstore]
        exact ⟨rfl, rfl⟩
      · obtain ⟨hresult, hstore, -⟩ := put_of_other b policy key s hread hupload heq
        rw [putTrace_of_other b policy path key s hread hupload heq, hresult, hstore]
        exact ⟨rfl, rfl⟩

theorem put_traced : PutTraced b policy path key s where
  problem _ hread := putTrace_of_problem b policy path key s hread
  failure _ _ hread h := putTrace_of_failure b policy path key s hread h
  same _ hread h := putTrace_of_same b policy path key s hread h
  other _ _ hread h hne := putTrace_of_other b policy path key s hread h hne
  untraced := putTrace_untraced b policy path key s

end Traced

end Client

namespace Memory

variable (settings : Settings) (now : Instant)

theorem backend_upload (store : Store) (key : String) (content : Bytes) :
    (∃ failure, ((backend settings now).upload store key (.ok content)).result = .error failure ∧
      ((backend settings now).upload store key (.ok content)).store.catalog = store.catalog) ∨
    ((backend settings now).upload store key (.ok content)).result =
        .ok (reportedChecksum settings content) ∧
      ((backend settings now).upload store key (.ok content)).store.catalog =
        store.catalog.put key content := by
  show (∃ failure, (attempt settings _ _ _).1 = _ ∧ (attempt settings _ _ _).2 = _) ∨
    (attempt settings _ _ _).1 = _ ∧ (attempt settings _ _ _).2 = _
  rw [attempt]
  split
  · exact .inl ⟨_, rfl, rfl⟩
  · exact .inr ⟨rfl, rfl⟩

theorem backend_remove_ne (store : Store) {key name : String} (hne : name ≠ key) :
    ((backend settings now).remove store key).store.catalog.content? name =
      store.catalog.content? name := by
  show (attempt settings _ _ _).2.content? _ = _
  rw [attempt]
  split
  · rfl
  · rw [remove]
    split
    · rfl
    · rw [Catalog.content?_erase, if_neg hne]

theorem backend_remove_self (store : Store) {key : String}
    (hfaults : ∀ fault ∈ settings.faults, fault.hits ⟨.delete, key⟩ = false) :
    ((backend settings now).remove store key).store.catalog.content? key = none := by
  have hnone : settings.faults.find? (·.hits ⟨.delete, key⟩) = none := by
    refine List.find?_eq_none.mpr fun fault hfault => ?_
    rw [hfaults fault hfault]
    exact Bool.false_ne_true
  show (attempt settings _ _ _).2.content? _ = _
  rw [attempt, hnone]
  cases hblob : store.catalog.content? key with
  | none =>
    simp only [remove, present, hblob]
  | some content =>
    simp only [remove, present, hblob]
    rw [Catalog.content?_erase, if_pos rfl]

section Put

variable (policy : SignPolicy) (path key : String) (s : Session Store)

-- What putting a file leaves in memory, whatever faults there are.
structure PutOutcome : Prop where
  problem : ∀ problem, s.files.read path = .error problem →
    (Client.put ⟨backend settings now, policy⟩ path key s).2.store.catalog = s.store.catalog
  failure : ∀ content failure, s.files.read path = .ok content →
    ((backend settings now).upload s.store key (.ok content)).result = .error failure →
    (Client.put ⟨backend settings now, policy⟩ path key s).2.store.catalog = s.store.catalog
  other : ∀ content there, s.files.read path = .ok content →
    ((backend settings now).upload s.store key (.ok content)).result = .ok there →
    there ≠ Checksum.compute content →
    (∀ fault ∈ settings.faults, fault.hits ⟨.delete, key⟩ = false) →
    (Client.put ⟨backend settings now, policy⟩ path key s).2.store.catalog.content? key = none
  others : ∀ name, name ≠ key →
    (Client.put ⟨backend settings now, policy⟩ path key s).2.store.catalog.content? name =
      s.store.catalog.content? name

theorem put_failure_catalog {content : Bytes} {failure : Failure}
    (hread : s.files.read path = .ok content)
    (h : ((backend settings now).upload s.store key (.ok content)).result = .error failure) :
    (Client.put ⟨backend settings now, policy⟩ path key s).2.store.catalog = s.store.catalog := by
  obtain ⟨-, hstore, -⟩ := Client.put_of_failure (backend settings now) policy key s hread h
  rw [hstore]
  rcases backend_upload settings now s.store key content with ⟨_, -, hcatalog⟩ | ⟨hok, -⟩
  · exact hcatalog
  · rw [hok] at h
    exact nomatch h

theorem put_others {name : String} (hne : name ≠ key) :
    (Client.put ⟨backend settings now, policy⟩ path key s).2.store.catalog.content? name =
      s.store.catalog.content? name := by
  cases hread : s.files.read path with
  | error problem => rw [Client.put_of_problem (backend settings now) policy key s hread]
  | ok content =>
    rcases backend_upload settings now s.store key content with
      ⟨failure, hfailure, -⟩ | ⟨hok, hcatalog⟩
    · rw [put_failure_catalog settings now policy path key s hread hfailure]
    · have hput : ((backend settings now).upload s.store key (.ok content)).store.catalog.content?
          name = s.store.catalog.content? name := by
        rw [hcatalog, Catalog.content?_put, if_neg hne]
      by_cases heq : reportedChecksum settings content = Checksum.compute content
      · rw [heq] at hok
        obtain ⟨-, hstore, -⟩ := Client.put_of_same (backend settings now) policy key s hread hok
        rw [hstore, hput]
      · obtain ⟨-, hstore, -⟩ :=
          Client.put_of_other (backend settings now) policy key s hread hok heq
        rw [hstore, backend_remove_ne settings now _ hne, hput]

theorem put_outcome : PutOutcome settings now policy path key s where
  problem problem hread := by
    rw [Client.put_of_problem (backend settings now) policy key s hread]
  failure content failure hread h := put_failure_catalog settings now policy path key s hread h
  other content there hread h hne hfaults := by
    obtain ⟨-, hstore, -⟩ := Client.put_of_other (backend settings now) policy key s hread h hne
    rw [hstore]
    exact backend_remove_self settings now _ hfaults
  others name hne := put_others settings now policy path key s hne

end Put

end Memory

end BlobStorage
