import BlobStorage.Command.Perform
import BlobStorage.Proofs.Client.Paging
import BlobStorage.Proofs.Client.Put

-- What a session can be asked to do, step by step. A property of the store that the backend's
-- operations keep is kept by every session.
namespace BlobStorage

namespace Backend

variable {σ : Type}

-- The store after a call.
def after (b : Backend σ) (s : σ) : Call → σ
  | .upload key source => (b.upload s key source).store
  | .download key => (b.download s key).store
  | .remove key => (b.remove s key).store
  | .properties key => (b.properties s key).store
  | .signedUrl key permissions expiry => (b.signedUrl s key permissions expiry).store
  | .page under marker => (b.page s under marker).store
  | .copy source dest => (b.copy s source dest).store

def Keeps (b : Backend σ) (P : σ → Prop) : Prop := ∀ s call, P s → P (b.after s call)

end Backend

-- A step of a session: an operation of the client, a whole command with its output, a call that
-- passes the client by, or anything that happens to the local files.
inductive Step where
  | put (path key : String)
  | get (key dest : String) (mode : Files.Mode)
  | delete (key : String)
  | deleteRecursive (under : String)
  | exist (key : String)
  | sign (key action : String) (validity : Span)
  | list (under : String)
  | copy (source dest : String)
  | execute (command : Command) (writer : Command.Writer)
  | call (call : Backend.Call)
  | upload (path key : String)
  | download (key dest : String) (mode : Files.Mode)
  | read (path : String)
  | files (change : Files → Files)

-- What a step shows to whoever asked for it.
inductive Seen where
  | nothing
  | done (result : Except Failure Unit)
  | existence (existence : Existence)
  | names (result : Except Failure (List String))
  | signed (result : Except Failure String)
  | finished (result : Except Failure Outcome) (output : Bytes)
  | stored (result : Except Failure Checksum)
  | size (result : Except Failure Nat)
  | delivered (result : Except Failure Delivery)
  | found (result : Except Failure Properties)
  | page (result : Except Failure Page)
  | content (result : Except Files.Problem Bytes)

namespace Client

variable {σ : Type} (c : Client σ)

def shown {α : Type} (see : α → Seen) (run : α × Session σ) : Seen × Session σ := (see run.1, run.2)

-- The backend's own operations.
def playCall (s : Session σ) : Backend.Call → Seen × Session σ
  | .upload key source => shown .stored (s.call (c.backend.upload · key source))
  | .download key => shown .delivered (s.call (c.backend.download · key))
  | .remove key => shown .done (s.call (c.backend.remove · key))
  | .properties key => shown .found (s.call (c.backend.properties · key))
  | .signedUrl key permissions expiry =>
    shown (fun result => .signed (result.map Url.text))
      (s.call (c.backend.signedUrl · key permissions expiry))
  | .page under marker => shown .page (s.call (c.backend.page · under marker))
  | .copy source dest => shown .done (s.call (c.backend.copy · source dest))

-- A file that cannot be opened ends a step. A folder can be opened, but not read.
def play (s : Session σ) : Step → Seen × Session σ
  | .put path key => shown .done (c.put path key s)
  | .get key dest mode =>
    match s.files.openFile dest mode with
    | .error problem => (.done (.error (.io problem)), s)
    | .ok (handle, files) => shown .done (c.get key handle { s with files := files })
  | .delete key => shown .done (c.delete key s)
  | .deleteRecursive under => shown .done (c.deleteRecursive under s)
  | .exist key => shown .existence (c.existence key s)
  | .sign key action validity => shown .signed (c.sign key action validity s)
  | .list under => shown .names (c.list under s)
  | .copy source dest => shown .done (c.copy source dest s)
  | .execute command w =>
    let (result, w, s) := Command.execute c command w s
    (.finished result w.written, s)
  | .call call => c.playCall s call
  | .upload path key =>
    match s.files.read path with
    | .error .isDirectory => c.playCall s (.upload key (.error .isDirectory))
    | .error problem => (.stored (.error (.io problem)), s)
    | .ok content => c.playCall s (.upload key (.ok content))
  | .download key dest mode =>
    match s.files.openFile dest mode with
    | .error problem => (.size (.error (.io problem)), s)
    | .ok (handle, files) => shown .size (c.download key handle { s with files := files })
  | .read path => (.content (s.files.read path), s)
  | .files change => (.nothing, { s with files := change s.files })

def step (s : Session σ) (step : Step) : Session σ := (c.play s step).2

theorem receive_store (delivery : Delivery) (handle : Files.Handle) (s : Session σ) :
    (receive delivery handle s).2.store = s.store := by
  unfold receive
  split <;> rfl

theorem adjust_store (key : String) (reported : Nat) (handle : Files.Handle) (s : Session σ) :
    (adjust key reported handle s).2.store = s.store := by
  unfold adjust
  split
  · rfl
  · simp only
    split <;> rfl

theorem delete_store (key : String) (s : Session σ) :
    (c.delete key s).2.store = (c.backend.remove s.store key).store := by
  cases hresult : (c.backend.remove s.store key).result with
  | ok _ => simp only [delete, Session.call, hresult]
  | error failure =>
    by_cases habsent : failure.isNotFound
    · simp only [delete, Session.call, hresult, habsent, if_true, Session.note]
    · simp only [delete, Session.call, hresult, habsent, Bool.false_eq_true, if_false]

theorem existence_store (key : String) (s : Session σ) :
    (c.existence key s).2.store = (c.backend.properties s.store key).store := by
  cases hresult : (c.backend.properties s.store key).result with
  | ok _ => simp only [existence, Session.call, hresult, Session.note]
  | error failure =>
    by_cases habsent : failure.isNotFound
    · simp only [existence, Session.call, hresult, habsent, if_true, Session.note]
    · simp only [existence, Session.call, hresult, habsent, Bool.false_eq_true, if_false]

theorem copy_store (source dest : String) (s : Session σ) :
    (c.copy source dest s).2.store = (c.backend.copy s.store source dest).store := by
  cases hresult : (c.backend.copy s.store source dest).result with
  | ok _ => simp only [copy, Session.call, hresult, Session.note]
  | error _ => simp only [copy, Session.call, hresult]

theorem download_store (key : String) (handle : Files.Handle) (s : Session σ) :
    (c.download key handle s).2.store = (c.backend.download s.store key).store := by
  cases hresult : (c.backend.download s.store key).result with
  | ok delivery =>
    simp only [download, Session.call, hresult]
    exact receive_store delivery handle _
  | error _ => simp only [download, Session.call, hresult]

theorem get_store (key : String) (handle : Files.Handle) (s : Session σ) :
    (c.get key handle s).2.store = (c.backend.download s.store key).store := by
  rw [← download_store c key handle s]
  unfold get
  cases c.download key handle s with
  | mk result after =>
    cases result with
    | ok reported => exact adjust_store key reported handle after
    | error failure => rfl

section Keeps

variable {c} {P : σ → Prop} (hkeeps : c.backend.Keeps P) {s : Session σ} (h : P s.store)
include hkeeps h

theorem put_keeps (path key : String) : P (c.put path key s).2.store := by
  obtain ⟨b, policy⟩ := c
  cases hread : s.files.read path with
  | error problem => rwa [put_of_problem b policy key s hread]
  | ok content =>
    have hupload : P (b.upload s.store key (.ok content)).store :=
      hkeeps s.store (.upload key (.ok content)) h
    cases hresult : (b.upload s.store key (.ok content)).result with
    | error failure => rwa [(put_of_failure b policy key s hread hresult).2.1]
    | ok there =>
      by_cases hsame : there = Checksum.compute content
      · rw [hsame] at hresult
        rwa [(put_of_same b policy key s hread hresult).2.1]
      · rw [(put_of_other b policy key s hread hresult hsame).2.1]
        exact hkeeps _ (.remove key) hupload

theorem get_keeps (key : String) (handle : Files.Handle) : P (c.get key handle s).2.store := by
  rw [get_store]
  exact hkeeps s.store (.download key) h

theorem download_keeps (key : String) (handle : Files.Handle) :
    P (c.download key handle s).2.store := by
  rw [download_store]
  exact hkeeps s.store (.download key) h

theorem delete_keeps (key : String) : P (c.delete key s).2.store := by
  rw [delete_store]
  exact hkeeps s.store (.remove key) h

theorem existence_keeps (key : String) : P (c.existence key s).2.store := by
  rw [existence_store]
  exact hkeeps s.store (.properties key) h

theorem copy_keeps (source dest : String) : P (c.copy source dest s).2.store := by
  rw [copy_store]
  exact hkeeps s.store (.copy source dest) h

theorem sign_keeps (key action : String) (validity : Span) :
    P (c.sign key action validity s).2.store := by
  unfold sign
  split
  · exact h
  · split
    · exact h
    · rename_i action _ _ expiry _
      have hcall : P (s.call (c.backend.signedUrl · key action.permissions expiry)).2.store :=
        hkeeps s.store (.signedUrl key action.permissions expiry) h
      cases hresult : s.call (c.backend.signedUrl · key action.permissions expiry) with
      | mk result after =>
        rw [hresult] at hcall
        cases result <;> exact hcall

omit h in
-- Page by page.
theorem pagesFrom_keeps (under marker : Option String) (s : Session σ) (h : P s.store) :
    P (c.pagesFrom under marker s).2.store := by
  induction marker, s using pagesFrom.induct c under with
  | case1 marker s failure events store hpage =>
    have hcall := hkeeps s.store (.page under marker) h
    simp only [Backend.after, hpage] at hcall
    rw [c.pagesFrom_error under marker s hpage]
    exact hcall
  | case2 marker s names events store hpage =>
    have hcall := hkeeps s.store (.page under marker) h
    simp only [Backend.after, hpage] at hcall
    rw [c.pagesFrom_last under marker s hpage]
    exact hcall
  | case3 marker s names next events store hpage more after hmore ih
  | case4 marker s names next events store hpage failure after hmore ih =>
    have hcall := hkeeps s.store (.page under marker) h
    simp only [Backend.after, hpage] at hcall
    have hrest := ih hcall
    rw [hmore] at hrest
    simpa only [c.pagesFrom_next under marker s hpage, hmore] using hrest

theorem list_keeps (under : String) : P (c.list under s).2.store := by
  have hpages := pagesFrom_keeps hkeeps (scope under) none s h
  unfold list
  cases hresult : c.pagesFrom (scope under) none s with
  | mk result after =>
    rw [hresult] at hpages
    cases result <;> exact hpages

omit h in
theorem deleteAll_keeps (keys : List String) (s : Session σ) (h : P s.store) :
    P (c.deleteAll keys s).2.store := by
  induction keys generalizing s with
  | nil => exact h
  | cons key keys ih =>
    have hdelete := delete_keeps hkeeps h key
    unfold deleteAll
    cases hresult : c.delete key s with
    | mk result after =>
      rw [hresult] at hdelete
      cases result with
      | ok _ => exact ih after hdelete
      | error failure => exact ih (after.note (undeleted key failure)) hdelete

theorem deleteRecursive_keeps (under : String) : P (c.deleteRecursive under s).2.store := by
  have hlist := list_keeps hkeeps h under
  unfold deleteRecursive
  cases hresult : c.list under s with
  | mk result after =>
    rw [hresult] at hlist
    cases result with
    | error failure => exact hlist
    | ok keys =>
      have hall := deleteAll_keeps hkeeps keys (after.note (deleting under keys)) hlist
      simp only
      split <;> simp_all

theorem work_keeps (command : Command) : P (Command.work c command s).2.store := by
  cases command with
  | put source dest => exact put_keeps hkeeps h source dest
  | get source dest =>
    unfold Command.work
    simp only
    split
    · exact h
    · exact get_keeps hkeeps (by exact h) source _
  | delete key => exact delete_keeps hkeeps h key
  | deleteRecursive under => exact deleteRecursive_keeps hkeeps h under
  | exist key =>
    have hexist := existence_keeps hkeeps h key
    unfold Command.work
    simp only
    split <;> simp_all
  | sign key action validity => exact sign_keeps hkeeps h key action validity
  | list under => exact list_keeps hkeeps h under
  | copy source dest => exact copy_keeps hkeeps h source dest

theorem execute_keeps (command : Command) (writer : Command.Writer) :
    P (Command.execute c command writer s).2.2.store := by
  have hwork := work_keeps hkeeps h command
  unfold Command.execute
  split
  · simp_all
  · simp_all
  · split <;> simp_all

theorem playCall_keeps (call : Backend.Call) : P (c.playCall s call).2.store := by
  have hafter := hkeeps s.store call h
  cases call <;> exact hafter

theorem step_keeps (step : Step) : P (c.step s step).store := by
  unfold Client.step
  cases step with
  | put path key => exact put_keeps hkeeps h path key
  | get key dest mode =>
    unfold play
    simp only
    split
    · exact h
    · exact get_keeps hkeeps (by exact h) key _
  | delete key => exact delete_keeps hkeeps h key
  | deleteRecursive under => exact deleteRecursive_keeps hkeeps h under
  | exist key => exact existence_keeps hkeeps h key
  | sign key action validity => exact sign_keeps hkeeps h key action validity
  | list under => exact list_keeps hkeeps h under
  | copy source dest => exact copy_keeps hkeeps h source dest
  | execute command writer => exact execute_keeps hkeeps h command writer
  | call call => exact playCall_keeps hkeeps h call
  | upload path key =>
    unfold play
    simp only
    split
    · exact playCall_keeps hkeeps h _
    · exact h
    · exact playCall_keeps hkeeps h _
  | download key dest mode =>
    unfold play
    simp only
    split
    · exact h
    · exact download_keeps hkeeps (by exact h) key _
  | read path => exact h
  | files change => exact h

end Keeps

end Client

end BlobStorage
