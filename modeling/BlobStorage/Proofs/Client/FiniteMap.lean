import BlobStorage.Proofs.Client.RecursiveDelete
import BlobStorage.Proofs.Digest.Pieces
import BlobStorage.Proofs.Files

-- Over memory, the client is a finite map from names to contents.
namespace BlobStorage.FiniteMap

-- A download goes into a file that is made, or emptied, for it.
inductive Operation where
  | put (source key : String)
  | get (key dest : String)
  | delete (key : String)
  | exist (key : String)
  | list (under : String)
  | deleteRecursive (under : String)
  | copy (source dest : String)

inductive Answer where
  | done (result : Except Failure Unit)
  | existence (found : Existence)
  | names (result : Except Failure (List String))

section Client

variable {σ : Type} (c : Client σ)

def perform (s : Session σ) : Operation → Answer × Session σ
  | .put source key => (c.put source key s).map .done id
  | .get key dest =>
    match s.files.openFile dest .create with
    | .error problem => (.done (.error (.io problem)), s)
    | .ok (handle, files) => (c.get key handle { s with files := files }).map .done id
  | .delete key => (c.delete key s).map .done id
  | .exist key => (c.existence key s).map .existence id
  | .list under => (c.list under s).map .names id
  | .deleteRecursive under => (c.deleteRecursive under s).map .done id
  | .copy source dest => (c.copy source dest s).map .done id

-- The answers to operations, each with what there is after it.
def history (s : Session σ) : List Operation → List (Answer × Session σ)
  | [] => []
  | operation :: rest =>
    let outcome := perform c s operation
    outcome :: history outcome.2 rest

def states (s : Session σ) (operations : List Operation) : List (Session σ) :=
  s :: (history c s operations).map (·.2)

end Client

-- The map, and the local files.
structure State where
  blobs : String → Option Bytes
  files : Files

-- What each operation on the map answers, and what it leaves. Names are in the order of their UTF-8
-- bytes.
inductive Step (s : State) : Operation → Answer → State → Prop
  | put {source key content} (h : s.files.read source = .ok content) :
    Step s (.put source key) (.done (.ok ()))
      { s with blobs := Function.update s.blobs key (some content) }
  | putUnreadable {source key problem} (h : s.files.read source = .error problem) :
    Step s (.put source key) (.done (.error (.io problem))) s
  | get {key dest content handle files} (h : s.blobs key = some content)
    (hopen : s.files.openFile dest .create = .ok (handle, files)) :
    Step s (.get key dest) (.done (.ok ()))
      { s with files := files.set handle.place (.file content) }
  | getAbsent {key dest handle files} (h : s.blobs key = none)
    (hopen : s.files.openFile dest .create = .ok (handle, files)) :
    Step s (.get key dest) (.done (.error (.blobNotFound key))) { s with files := files }
  | getUnwritable {key dest problem} (hopen : s.files.openFile dest .create = .error problem) :
    Step s (.get key dest) (.done (.error (.io problem))) s
  | delete {key} :
    Step s (.delete key) (.done (.ok ())) { s with blobs := Function.update s.blobs key none }
  | exist {key content} (h : s.blobs key = some content) :
    Step s (.exist key) (.existence .present) s
  | existAbsent {key} (h : s.blobs key = none) : Step s (.exist key) (.existence .absent) s
  | list {under names} (hascending : names.Pairwise fun a b => Text.utf8 a < Text.utf8 b)
    (hnames : ∀ key, key ∈ names ↔ (s.blobs key).isSome ∧ under.toList <+: key.toList) :
    Step s (.list under) (.names (.ok names)) s
  | deleteRecursive {under} :
    Step s (.deleteRecursive under) (.done (.ok ()))
      { s with blobs := fun key => if under.toList <+: key.toList then none else s.blobs key }
  | copy {source dest content} (h : s.blobs source = some content) :
    Step s (.copy source dest) (.done (.ok ()))
      { s with blobs := Function.update s.blobs dest (some content) }
  | copyAbsent {source dest} (h : s.blobs source = none) :
    Step s (.copy source dest) (.done (.error (.blobNotFound source))) s

inductive Run : State → List Operation → List (Answer × State) → Prop
  | nil {s} : Run s [] []
  | cons {s s' operation answer rest outcomes} (h : Step s operation answer s')
    (hrest : Run s' rest outcomes) : Run s (operation :: rest) ((answer, s') :: outcomes)

theorem Step.deterministic {s s₁ s₂ : State} {operation : Operation} {a₁ a₂ : Answer}
    (h₁ : Step s operation a₁ s₁) (h₂ : Step s operation a₂ s₂) : a₁ = a₂ ∧ s₁ = s₂ := by
  cases h₁ with
  | put h | putUnreadable h | exist h | existAbsent h | copy h | copyAbsent h =>
    cases h₂ <;> simp_all
  | get h hopen | getAbsent h hopen => cases h₂ <;> simp_all
  | getUnwritable hopen => cases h₂ <;> simp_all
  | delete | deleteRecursive => cases h₂; exact ⟨rfl, rfl⟩
  | list hascending hnames =>
    cases h₂ with
    | list hascending' hnames' =>
      have hlt := hascending.imp Text.utf8_lt_utf8.mp
      have hlt' := hascending'.imp Text.utf8_lt_utf8.mp
      have heq := hlt.eq_of_mem_iff hlt' fun key => (hnames key).trans (hnames' key).symm
      exact ⟨by rw [heq], rfl⟩

-- What was got stands in the file.
theorem Step.read_of_get {s s' : State} {key dest : String}
    (h : Step s (.get key dest) (.done (.ok ())) s') :
    ∃ content, s.blobs key = some content ∧ s'.files.read dest = .ok content := by
  cases h with
  | @get _ _ content handle files h hopen =>
    obtain ⟨-, -, rfl, hread⟩ := Files.openFile_create hopen
    refine ⟨content, h, ?_⟩
    rw [Files.set_set]
    exact hread content

theorem Run.deterministic {s : State} {operations : List Operation} {o₁ o₂ : List (Answer × State)}
    (h₁ : Run s operations o₁) (h₂ : Run s operations o₂) : o₁ = o₂ := by
  induction h₁ generalizing o₂ with
  | nil =>
    cases h₂
    rfl
  | cons h _ ih =>
    cases h₂ with
    | cons h' hrest' =>
      obtain ⟨rfl, rfl⟩ := h.deterministic h'
      rw [ih hrest']

section Memory

open Memory

-- A store that does what it is asked for.
structure Faultless (settings : Settings) : Prop where
  faults : settings.faults = []
  uploads : settings.corruptUploads = false
  downloads : settings.shortDownloads = false

-- What the client's callers can tell of a session.
def view (s : Session Store) : State := ⟨s.store.catalog.content?, s.files⟩

-- A word can count the names twice over, as it can those of any memory that it addresses.
def Counted (s : Session Store) : Prop := 2 * s.store.catalog.keys.length ≤ Text.word64

instance (s : Session Store) : Decidable (Counted s) := Nat.decLe _ _

-- A download into a file that was made for it.
theorem receive_created (store : Store) (events : List Event) {files opened : Files} {dest : String}
    {handle : Files.Handle} (hopen : files.openFile dest .create = .ok (handle, opened))
    (content : Bytes) :
    Client.receive ⟨content, .ok content.length⟩ handle ⟨store, opened, events⟩ =
      (.ok content.length, ⟨store, opened.set handle.place (.file content), events⟩) := by
  obtain ⟨hmode, hplace, rfl, -⟩ := Files.openFile_create hopen
  rw [Client.receive, Files.write, Files.set_set]
  by_cases hempty : content = []
  · subst hempty
    rfl
  · simp only [if_neg hempty, hmode, Files.contentAt_set files hplace, Files.set_set, Bytes.overlay,
      List.drop_nil, List.append_nil]

theorem adjust_same (key : String) (store : Store) (events : List Event) {handle : Files.Handle}
    (hplace : handle.place ≠ []) (files : Files) (content : Bytes) :
    Client.adjust key content.length handle ⟨store, files.set handle.place (.file content), events⟩ =
      (.ok (), ⟨store, files.set handle.place (.file content), events⟩) := by
  rw [Client.adjust, Files.length, Files.contentAt_set files hplace, if_pos rfl]

def client (settings : Settings) (now : Instant) (policy : SignPolicy) : Client Store :=
  ⟨backend settings now, policy⟩

variable {settings : Settings} (hfaultless : Faultless settings) (now : Instant)
  (policy : SignPolicy) (s : Session Store)
include hfaultless

theorem Faultless.faultOf? (call : Call) : faultOf? settings call = none := by
  rw [Memory.faultOf?, hfaultless.faults]
  rfl

theorem put_step (source key : String) :
    Step (view s) (.put source key) (.done ((client settings now policy).put source key s).1)
      (view ((client settings now policy).put source key s).2) := by
  cases hread : s.files.read source with
  | error problem =>
    simp only [Client.put, hread]
    exact .putUnreadable hread
  | ok content =>
    have hcall := call_of_unhit (upload settings key (.ok content)) s (hfaultless.faultOf? ⟨.upload, key⟩)
    have hchecksum : reportedChecksum settings content = Checksum.ofFile content := by
      rw [reportedChecksum, hfaultless.uploads, Checksum.ofFile_eq]
      rfl
    have hstep : Step (view s) (.put source key) (.done (.ok ())) _ := .put hread
    rw [view, ← Catalog.content?_put_eq] at hstep
    simp only [Client.put, hread, client, backend, hcall, upload, hchecksum, if_pos]
    exact hstep

theorem call_download (key : String) :
    s.call ((client settings now policy).backend.download · key) =
      ((present s.store.catalog key).map fun content => ⟨content, .ok content.length⟩,
        ⟨⟨s.store.catalog, s.store.calls ++ [⟨.download, key⟩]⟩, s.files, s.events⟩) := by
  have hdeliver : deliver settings = fun content => ⟨content, .ok content.length⟩ := by
    funext content
    rw [deliver, hfaultless.downloads]
    rfl
  show s.call (enter settings · ⟨.download, key⟩ (download settings key)) = _
  rw [call_of_unhit _ _ (hfaultless.faultOf? _), download, hdeliver]
  rfl

theorem get_step (key dest : String) :
    Step (view s) (.get key dest) (perform (client settings now policy) s (.get key dest)).1
      (view (perform (client settings now policy) s (.get key dest)).2) := by
  cases hopen : s.files.openFile dest .create with
  | error problem =>
    simp only [perform, hopen]
    exact .getUnwritable hopen
  | ok opened =>
    obtain ⟨handle, files⟩ := opened
    obtain ⟨-, hplace, -⟩ := Files.openFile_create hopen
    have hcall := call_download hfaultless now policy ⟨s.store, files, s.events⟩ key
    simp only [perform, hopen, Client.get, Client.download, hcall]
    cases hblob : s.store.catalog.content? key with
    | none =>
      simp only [present, hblob, Except.map]
      exact .getAbsent hblob hopen
    | some content =>
      have hreceive := fun store events => receive_created store events hopen content
      have hadjust := fun store events => adjust_same key store events hplace files content
      simp only [present, hblob, Except.map, hreceive, hadjust]
      exact .get hblob hopen

theorem delete_view (key : String) :
    ((client settings now policy).delete key s).1 = .ok () ∧
      view ((client settings now policy).delete key s).2 =
        ⟨Function.update s.store.catalog.content? key none, s.files⟩ := by
  obtain ⟨hresult, hcontent, -, hfiles⟩ :=
    delete_of_unhit now policy s (hfaultless.faultOf? ⟨.delete, key⟩)
  refine ⟨hresult, ?_⟩
  rw [← hcontent, ← hfiles]
  rfl

theorem delete_step (key : String) :
    Step (view s) (.delete key) (.done ((client settings now policy).delete key s).1)
      (view ((client settings now policy).delete key s).2) := by
  obtain ⟨hok, hview⟩ := delete_view hfaultless now policy s key
  rw [hok, hview]
  exact .delete

theorem exist_step (key : String) :
    Step (view s) (.exist key) (.existence ((client settings now policy).existence key s).1)
      (view ((client settings now policy).existence key s).2) := by
  have hcall := call_of_unhit (properties key) s (hfaultless.faultOf? ⟨.getProperties, key⟩)
  simp only [Client.existence, client, backend, hcall]
  cases hblob : s.store.catalog.content? key with
  | none =>
    simp only [properties, look, present, hblob, Except.map, Failure.isNotFound, if_true]
    exact .existAbsent hblob
  | some content =>
    simp only [properties, look, present, hblob, Except.map]
    exact .exist hblob

theorem copy_step (source dest : String) :
    Step (view s) (.copy source dest) (.done ((client settings now policy).copy source dest s).1)
      (view ((client settings now policy).copy source dest s).2) := by
  have hcall := call_of_unhit (copy source dest) s (hfaultless.faultOf? ⟨.copy, source⟩)
  simp only [Client.copy, client, backend, hcall]
  cases hblob : s.store.catalog.content? source with
  | none =>
    simp only [copy, present, hblob]
    exact .copyAbsent hblob
  | some content =>
    have hstep : Step (view s) (.copy source dest) (.done (.ok ())) _ := .copy hblob
    rw [view, ← Catalog.content?_put_eq] at hstep
    simp only [copy, present, hblob]
    exact hstep

section Listing

variable (hsize : settings.pageSize < Text.word64) (hcount : Counted s)
include hsize hcount

theorem list_view (under : String) :
    ((client settings now policy).list under s).1 = .ok (s.store.catalog.keysUnder under) ∧
      view ((client settings now policy).list under s).2 = view s := by
  obtain ⟨hnames, hstore, hfiles⟩ :=
    list_of_unhit now policy s (hfaultless.faultOf? ⟨.listPage, under⟩) hsize hcount
  refine ⟨hnames, ?_⟩
  show State.mk (Client.list ⟨backend settings now, policy⟩ under s).2.store.catalog.content?
    (Client.list ⟨backend settings now, policy⟩ under s).2.files = _
  rw [hstore, hfiles]
  rfl

theorem list_step (under : String) :
    Step (view s) (.list under) (.names ((client settings now policy).list under s).1)
      (view ((client settings now policy).list under s).2) := by
  obtain ⟨hnames, hview⟩ := list_view hfaultless now policy s hsize hcount under
  rw [hnames, hview]
  refine .list ?_ fun key => s.store.catalog.mem_keysUnder
  exact (s.store.catalog.keysUnder_ascending under).imp Text.utf8_lt_utf8.mpr

theorem deleteRecursive_step (under : String) :
    Step (view s) (.deleteRecursive under)
      (.done ((client settings now policy).deleteRecursive under s).1)
      (view ((client settings now policy).deleteRecursive under s).2) := by
  have hall := deletesAll now policy s (hfaultless.faultOf? ⟨.listPage, under⟩) hsize hcount
  have hnone : deleteFailures settings (s.store.catalog.keysUnder under) = [] := by
    simp [deleteFailures, deleteFailure?, hfaultless.faultOf?]
  have hresult : ((client settings now policy).deleteRecursive under s).1 = .ok () := by
    have hresult := hall.result
    rwa [if_pos hnone] at hresult
  have hview : view ((client settings now policy).deleteRecursive under s).2 =
      ⟨fun key => if under.toList <+: key.toList then none else s.store.catalog.content? key,
        s.files⟩ := by
    have hcontent := funext hall.content
    simp only [hfaultless.faultOf?, and_true] at hcontent
    rw [← hcontent, ← hall.files]
    rfl
  rw [hresult, hview]
  exact .deleteRecursive

theorem perform_step (operation : Operation) :
    Step (view s) operation (perform (client settings now policy) s operation).1
      (view (perform (client settings now policy) s operation).2) := by
  cases operation with
  | put source key => exact put_step hfaultless now policy s source key
  | get key dest => exact get_step hfaultless now policy s key dest
  | delete key => exact delete_step hfaultless now policy s key
  | exist key => exact exist_step hfaultless now policy s key
  | list under => exact list_step hfaultless now policy s hsize hcount under
  | deleteRecursive under => exact deleteRecursive_step hfaultless now policy s hsize hcount under
  | copy source dest => exact copy_step hfaultless now policy s source dest

end Listing

theorem history_run (hsize : settings.pageSize < Text.word64) (operations : List Operation)
    (hcount : ∀ t ∈ states (client settings now policy) s operations, Counted t) :
    Run (view s) operations
      ((history (client settings now policy) s operations).map (Prod.map id view)) := by
  induction operations generalizing s with
  | nil => exact .nil
  | cons operation rest ih =>
    have hstep := perform_step hfaultless now policy s hsize (hcount s List.mem_cons_self) operation
    have hrest := ih (perform (client settings now policy) s operation).2 fun t ht =>
      hcount t (List.mem_cons_of_mem _ ht)
    exact .cons hstep hrest

end Memory

section Plain

open Memory

-- A store in memory with pages of some size, zero counting as one, and nothing else set.
def plain (size : UInt64) : Settings := Settings.withPageSize {} size.toNat

variable (size : UInt64)

theorem plain_faultless : Faultless (plain size) := ⟨rfl, rfl, rfl⟩

theorem plain_pageSize : (plain size).pageSize < Text.word64 := by
  have hsize := size.toNat_lt
  show max size.toNat 1 < Text.word64
  rw [Text.word64]
  omega

-- Operation by operation, the client answers what the map answers, and leaves what the map leaves.
theorem run_iff_history (now : Instant) (policy : SignPolicy) (s : Session Store)
    (operations : List Operation)
    (hcount : ∀ t ∈ states (client (plain size) now policy) s operations, Counted t)
    (outcomes : List (Answer × State)) :
    Run (view s) operations outcomes ↔
      outcomes =
        (history (client (plain size) now policy) s operations).map (Prod.map id view) := by
  have hrun := history_run (plain_faultless size) now policy s (plain_pageSize size) operations
    hcount
  constructor
  · intro h
    exact h.deterministic hrun
  · rintro rfl
    exact hrun

section Sample

def sampleClient : Client Store := client (plain 1) (.ofSeconds 0) .standard

def sample : Session Store :=
  ⟨⟨(Catalog.empty.put "b" [1]).put "a" [2], []⟩, Files.empty.store "file" [3], []⟩

def sampleOperations : List Operation :=
  [.put "file" "ab", .list "a", .deleteRecursive "a", .exist "ab", .get "b" "copy", .copy "b" "c"]

theorem run_sample :
    (∀ t ∈ states sampleClient sample sampleOperations, Counted t) ∧
    Run (view sample) sampleOperations
      ((history sampleClient sample sampleOperations).map (Prod.map id view)) := by
  have hcount : ∀ t ∈ states sampleClient sample sampleOperations, Counted t := by decide +kernel
  exact ⟨hcount, (run_iff_history 1 _ _ sample sampleOperations hcount _).mpr rfl⟩

end Sample

end Plain

end BlobStorage.FiniteMap
