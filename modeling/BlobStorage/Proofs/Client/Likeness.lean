import BlobStorage.Proofs.Client.Steps

-- Two runs side by side: clients whose backends do alike do alike, whatever they are asked for.
namespace BlobStorage

variable {σ τ α β : Type}

-- Both succeed, with related values, or both fail in the same way.
inductive Matches (P : α → β → Prop) : Except Failure α → Except Failure β → Prop
  | ok {a : α} {b : β} (h : P a b) : Matches P (.ok a) (.ok b)
  | error (failure : Failure) : Matches P (.error failure) (.error failure)

theorem Matches.map {γ δ : Type} {P : α → β → Prop} {Q : γ → δ → Prop} {x : Except Failure α}
    {y : Except Failure β} {f : α → γ} {g : β → δ} (h : Matches P x y)
    (hfg : ∀ a b, P a b → Q (f a) (g b)) : Matches Q (x.map f) (y.map g) := by
  cases h with
  | ok h => exact .ok (hfg _ _ h)
  | error failure => exact .error failure

structure Reply.Like (R : σ → τ → Prop) (Q : Except Failure α → Except Failure β → Prop)
    (a : Reply σ α) (b : Reply τ β) : Prop where
  result : Q a.result b.result
  events : a.events = b.events
  store : R a.store b.store

theorem Reply.Like.eq_mk {R : σ → τ → Prop} {a : Reply σ α} {b : Reply τ α}
    (h : Reply.Like R Eq a b) {result : Except Failure α} {events : List Event} {store : σ}
    (ha : a = ⟨result, events, store⟩) :
    ∃ store', b = ⟨result, events, store'⟩ ∧ R store store' := by
  subst ha
  obtain ⟨rfl, rfl, hstore⟩ := h
  exact ⟨b.store, rfl, hstore⟩

theorem Reply.Like.noting {R : σ → τ → Prop} {Q : Except Failure α → Except Failure β → Prop}
    {a : Reply σ α} {b : Reply τ β} (h : Reply.Like R Q a b) (event : Event) :
    Reply.Like R Q (.noting event a) (.noting event b) :=
  ⟨h.result, by rw [Reply.noting, Reply.noting, h.events], h.store⟩

theorem Reply.Like.andThen {R : σ → τ → Prop} {a : Reply σ α} {b : Reply τ α}
    (h : Reply.Like R Eq a b) {next : α → σ → Reply σ β} {other : α → τ → Reply τ β}
    (hnext : ∀ value s t, R s t → Reply.Like R Eq (next value s) (other value t)) :
    Reply.Like R Eq (a.andThen next) (b.andThen other) := by
  obtain ⟨result, events, s⟩ := a
  obtain ⟨result', events', t⟩ := b
  obtain ⟨rfl, rfl, hstore⟩ : result = result' ∧ events = events' ∧ R s t :=
    ⟨h.result, h.events, h.store⟩
  cases result with
  | error failure => exact ⟨rfl, rfl, hstore⟩
  | ok value =>
    have hmore := hnext value s t hstore
    exact ⟨hmore.result, congrArg (events ++ ·) hmore.events, hmore.store⟩

structure Session.Like (R : σ → τ → Prop) (s : Session σ) (t : Session τ) : Prop where
  store : R s.store t.store
  files : s.files = t.files
  events : s.events = t.events

-- Runs with related results that end in sessions alike.
inductive Alike (R : σ → τ → Prop) (Q : α → β → Prop) : α × Session σ → β × Session τ → Prop
  | intro {a : α} {b : β} {s : Session σ} {t : Session τ} (h : Q a b) (hs : Session.Like R s t) :
    Alike R Q (a, s) (b, t)

-- Backends whose operations do alike, but for the URLs that they sign.
structure Backend.Like (R : σ → τ → Prop) (U : Url → Url → Prop) (b : Backend σ) (b' : Backend τ) :
    Prop where
  now : b.now = b'.now
  upload : ∀ {s t}, R s t → ∀ key source,
    Reply.Like R Eq (b.upload s key source) (b'.upload t key source)
  download : ∀ {s t}, R s t → ∀ key, Reply.Like R Eq (b.download s key) (b'.download t key)
  remove : ∀ {s t}, R s t → ∀ key, Reply.Like R Eq (b.remove s key) (b'.remove t key)
  properties : ∀ {s t}, R s t → ∀ key, Reply.Like R Eq (b.properties s key) (b'.properties t key)
  signedUrl : ∀ {s t}, R s t → ∀ key permissions expiry,
    Reply.Like R (Matches U) (b.signedUrl s key permissions expiry)
      (b'.signedUrl t key permissions expiry)
  page : ∀ {s t}, R s t → ∀ under marker,
    Reply.Like R Eq (b.page s under marker) (b'.page t under marker)
  copy : ∀ {s t}, R s t → ∀ source dest,
    Reply.Like R Eq (b.copy s source dest) (b'.copy t source dest)

structure Client.Like (R : σ → τ → Prop) (U : Url → Url → Prop) (c : Client σ) (d : Client τ) :
    Prop where
  backend : Backend.Like R U c.backend d.backend
  policy : c.policy = d.policy

variable {R : σ → τ → Prop}

namespace Session.Like

variable {s : Session σ} {t : Session τ} (h : Session.Like R s t)
include h

theorem note (event : Event) : Session.Like R (s.note event) (t.note event) :=
  ⟨h.store, h.files, by rw [Session.note, Session.note, h.events]⟩

theorem withFiles (files : Files) :
    Session.Like R { s with files := files } { t with files := files } :=
  ⟨h.store, rfl, h.events⟩

theorem call {Q : Except Failure α → Except Failure β → Prop} (operation : σ → Reply σ α)
    (other : τ → Reply τ β) (hreply : Reply.Like R Q (operation s.store) (other t.store)) :
    Alike R Q (s.call operation) (t.call other) :=
  .intro hreply.result ⟨hreply.store, h.files, by rw [h.events, hreply.events]⟩

end Session.Like

theorem Alike.same {x : α × Session σ} {y : α × Session τ} (h : Alike R Eq x y) :
    ∃ a s t, x = (a, s) ∧ y = (a, t) ∧ Session.Like R s t := by
  cases h with
  | intro h hs =>
    subst h
    exact ⟨_, _, _, rfl, rfl, hs⟩

namespace Client

section Files

variable {s : Session σ} {t : Session τ} (h : Session.Like R s t)
include h

theorem receive_like (delivery : Delivery) (handle : Files.Handle) :
    Alike R Eq (receive delivery handle s) (receive delivery handle t) := by
  unfold receive
  rw [← h.files]
  cases s.files.write handle delivery.content with
  | error problem => exact .intro rfl h
  | ok files => exact .intro rfl (h.withFiles files)

theorem adjust_like (key : String) (reported : Nat) (handle : Files.Handle) :
    Alike R Eq (adjust key reported handle s) (adjust key reported handle t) := by
  have hnote := h.note (resizing key (s.files.length handle) reported)
  unfold adjust
  simp only [Session.note_files, ← h.files]
  split
  · exact .intro rfl h
  · cases s.files.setLength handle reported with
    | error problem => exact .intro rfl hnote
    | ok files => exact .intro rfl (hnote.withFiles files)

end Files

variable {U : Url → Url → Prop} {c : Client σ} {d : Client τ} (hlike : Client.Like R U c d)
  {s : Session σ} {t : Session τ} (h : Session.Like R s t)
include hlike h

theorem takeBack_like (key : String) : Session.Like R (c.takeBack key s) (d.takeBack key t) := by
  obtain ⟨result, s', t', hs, ht, hafter⟩ := (h.call (c.backend.remove · key)
    (d.backend.remove · key) (hlike.backend.remove h.store key)).same
  rw [takeBack, takeBack, hs, ht]
  cases result with
  | ok _ => exact hafter
  | error failure => exact hafter.note _

theorem put_like (path key : String) : Alike R Eq (c.put path key s) (d.put path key t) := by
  rw [put, put, ← h.files]
  cases s.files.read path with
  | error problem => exact .intro rfl h
  | ok content =>
    obtain ⟨result, s', t', hs, ht, hafter⟩ := (h.call (c.backend.upload · key (.ok content))
      (d.backend.upload · key (.ok content)) (hlike.backend.upload h.store key (.ok content))).same
    simp only [hs, ht]
    cases result with
    | error failure => exact .intro rfl hafter
    | ok there =>
      dsimp only
      split
      · exact .intro rfl (hafter.note _)
      · exact .intro rfl (takeBack_like hlike (hafter.note _) key)

theorem download_like (key : String) (handle : Files.Handle) :
    Alike R Eq (c.download key handle s) (d.download key handle t) := by
  obtain ⟨result, s', t', hs, ht, hafter⟩ := (h.call (c.backend.download · key)
    (d.backend.download · key) (hlike.backend.download h.store key)).same
  rw [download, download, hs, ht]
  cases result with
  | error failure => exact .intro rfl hafter
  | ok delivery => exact receive_like hafter delivery handle

theorem get_like (key : String) (handle : Files.Handle) :
    Alike R Eq (c.get key handle s) (d.get key handle t) := by
  obtain ⟨result, s', t', hs, ht, hafter⟩ := (download_like hlike h key handle).same
  rw [get, get, hs, ht]
  cases result with
  | error failure => exact .intro rfl hafter
  | ok reported => exact adjust_like hafter key reported handle

theorem delete_like (key : String) : Alike R Eq (c.delete key s) (d.delete key t) := by
  obtain ⟨result, s', t', hs, ht, hafter⟩ := (h.call (c.backend.remove · key)
    (d.backend.remove · key) (hlike.backend.remove h.store key)).same
  rw [delete, delete, hs, ht]
  cases result with
  | ok _ => exact .intro rfl hafter
  | error failure =>
    dsimp only
    split
    · exact .intro rfl (hafter.note _)
    · exact .intro rfl hafter

theorem existence_like (key : String) : Alike R Eq (c.existence key s) (d.existence key t) := by
  obtain ⟨result, s', t', hs, ht, hafter⟩ := (h.call (c.backend.properties · key)
    (d.backend.properties · key) (hlike.backend.properties h.store key)).same
  rw [existence, existence, hs, ht]
  cases result with
  | ok _ => exact .intro rfl (hafter.note _)
  | error failure =>
    dsimp only
    split
    · exact .intro rfl (hafter.note _)
    · exact .intro rfl hafter

theorem copy_like (source dest : String) :
    Alike R Eq (c.copy source dest s) (d.copy source dest t) := by
  obtain ⟨result, s', t', hs, ht, hafter⟩ := (h.call (c.backend.copy · source dest)
    (d.backend.copy · source dest) (hlike.backend.copy h.store source dest)).same
  rw [copy, copy, hs, ht]
  cases result with
  | ok _ => exact .intro rfl (hafter.note _)
  | error failure => exact .intro rfl hafter

omit h in
-- Page by page, as the first of the two goes on.
theorem pagesFrom_like (under marker : Option String) (s : Session σ) {t : Session τ}
    (h : Session.Like R s t) :
    Alike R Eq (c.pagesFrom under marker s) (d.pagesFrom under marker t) := by
  induction marker, s using pagesFrom.induct c under generalizing t with
  | case1 marker s failure events store hpage =>
    obtain ⟨after, hother, hafter⟩ := (hlike.backend.page h.store under marker).eq_mk hpage
    rw [c.pagesFrom_error under marker s hpage, d.pagesFrom_error under marker t hother]
    exact .intro rfl ⟨hafter, h.files, by rw [h.events]⟩
  | case2 marker s names events store hpage =>
    obtain ⟨after, hother, hafter⟩ := (hlike.backend.page h.store under marker).eq_mk hpage
    rw [c.pagesFrom_last under marker s hpage, d.pagesFrom_last under marker t hother]
    exact .intro rfl ⟨hafter, h.files, by rw [h.events]⟩
  | case3 marker s names next events store hpage more after hmore ih
  | case4 marker s names next events store hpage failure after hmore ih =>
    obtain ⟨store', hother, hstore⟩ := (hlike.backend.page h.store under marker).eq_mk hpage
    obtain ⟨result, s', t', hs, ht, hafter⟩ :=
      (ih (t := ⟨store', t.files, t.events ++ events⟩) ⟨hstore, h.files, by rw [h.events]⟩).same
    rw [c.pagesFrom_next under marker s hpage, d.pagesFrom_next under marker t hother, hs, ht]
    cases result with
    | ok more => exact .intro rfl hafter
    | error failure => exact .intro rfl hafter

theorem list_like (under : String) : Alike R Eq (c.list under s) (d.list under t) := by
  obtain ⟨result, s', t', hs, ht, hafter⟩ := (pagesFrom_like hlike (scope under) none s h).same
  rw [list, list, hs, ht]
  cases result with
  | ok names => exact .intro rfl (hafter.note _)
  | error failure => exact .intro rfl hafter

omit h in
theorem deleteAll_like (keys : List String) {s : Session σ} {t : Session τ}
    (h : Session.Like R s t) : Alike R Eq (c.deleteAll keys s) (d.deleteAll keys t) := by
  induction keys generalizing s t with
  | nil => exact .intro rfl h
  | cons key keys ih =>
    obtain ⟨result, s', t', hs, ht, hafter⟩ := (delete_like hlike h key).same
    rw [deleteAll, deleteAll, hs, ht]
    cases result with
    | ok _ => exact ih hafter
    | error failure =>
      obtain ⟨failures, s'', t'', hs', ht', hmore⟩ :=
        (ih (hafter.note (undeleted key failure))).same
      simp only [hs', ht']
      exact .intro rfl hmore

theorem deleteRecursive_like (under : String) :
    Alike R Eq (c.deleteRecursive under s) (d.deleteRecursive under t) := by
  obtain ⟨result, s', t', hs, ht, hafter⟩ := (list_like hlike h under).same
  rw [deleteRecursive, deleteRecursive, hs, ht]
  cases result with
  | error failure => exact .intro rfl hafter
  | ok keys =>
    obtain ⟨failures, s'', t'', hs', ht', hmore⟩ :=
      (deleteAll_like hlike keys (hafter.note (deleting under keys))).same
    simp only [hs', ht']
    cases failures with
    | nil => exact .intro rfl hmore
    | cons first rest => exact .intro rfl hmore

-- What is signed differs as the backends' URLs do.
theorem sign_like {T : String → String → Prop}
    (hT : ∀ url url' pair, U url url' →
      T (url.appendQuery [pair]).text (url'.appendQuery [pair]).text)
    (key action : String) (validity : Span) :
    Alike R (Matches T) (c.sign key action validity s) (d.sign key action validity t) := by
  rw [sign, sign]
  cases SignAction.parse action with
  | error failure => exact .intro (.error failure) h
  | ok intent =>
    dsimp only
    rw [← hlike.backend.now]
    cases expiry c.backend.now validity with
    | error failure => exact .intro (.error failure) h
    | ok expiry =>
      have hcall := h.call (c.backend.signedUrl · key intent.permissions expiry)
        (d.backend.signedUrl · key intent.permissions expiry)
        (hlike.backend.signedUrl h.store key intent.permissions expiry)
      dsimp only
      generalize s.call (c.backend.signedUrl · key intent.permissions expiry) = x at hcall ⊢
      generalize t.call (d.backend.signedUrl · key intent.permissions expiry) = y at hcall ⊢
      cases hcall with
      | intro hurl hafter =>
        cases hurl with
        | error failure => exact .intro (.error failure) hafter
        | ok hurl =>
          have hpair : c.timeoutParameter intent = d.timeoutParameter intent := by
            rw [timeoutParameter, timeoutParameter, hlike.policy]
          exact .intro (.ok (hpair ▸ hT _ _ _ hurl)) hafter

end Client

namespace Seen

-- What a command shows when its work is done, and its output is written.
def settled (w : Command.Writer) : Except Failure Command.Rest → Seen
  | .error failure => .finished (.error failure) w.written
  | .ok (.silent outcome) => .finished (.ok outcome) w.written
  | .ok (.write pieces) =>
    match w.writeAll pieces with
    | (.ok _, w) => .finished (.ok .success) w.written
    | (.error problem, w) => .finished (.error (.io problem)) w.written

-- What a command shows whose output is a text: all of it is written, or as much as there is room
-- for. A writer without any room left fails in the end.
def written (w : Command.Writer) (text : String) : Seen :=
  match w.room with
  | none => .finished (.ok .success) (w.written ++ Text.utf8 text)
  | some room =>
    .finished
      (if (Text.utf8 text).length < room then .ok .success
       else .error (.io Command.Writer.full))
      (w.written ++ (Text.utf8 text).take room)

theorem settled_text (w : Command.Writer) (text : String) :
    settled w (.ok (.write [Text.utf8 text])) = written w text := by
  obtain ⟨room, before⟩ := w
  cases room with
  | none => rfl
  | some room =>
    simp only [settled, written, Command.Writer.writeAll, Command.Writer.write]
    by_cases hfits : (Text.utf8 text).length ≤ room
    · rw [if_pos hfits]
      simp only [Command.Writer.flush, Option.some.injEq]
      by_cases hroom : room - (Text.utf8 text).length = 0
      · rw [if_pos hroom, if_neg (by omega)]
      · rw [if_neg hroom, if_pos (by omega)]
    · rw [if_neg hfits, if_neg (by omega)]

-- What a command shows that writes a text, if it comes to that.
def ofText (w : Command.Writer) : Except Failure String → Seen
  | .ok text => written w text
  | .error failure => .finished (.error failure) w.written

-- A step shows the same, or texts that are related. A command's are compared before its writer cuts
-- them.
inductive Like (T : String → String → Prop) : Step → Seen → Seen → Prop
  | same {step : Step} (seen : Seen) : Like T step seen seen
  | signed {step : Step} {text text' : String} (h : T text text') :
    Like T step (.signed (.ok text)) (.signed (.ok text'))
  | written {key action : String} {validity : Span} {w : Command.Writer} {text text' : String}
    (h : T text text') :
    Like T (.execute (.sign key action validity) w) (written w text) (written w text')

variable {T : String → String → Prop} {x y : Except Failure String} (h : Matches T x y)
include h

theorem like_signed {step : Step} : Like T step (.signed x) (.signed y) := by
  cases h with
  | ok h => exact .signed h
  | error failure => exact .same _

theorem like_ofText (key action : String) (validity : Span) (w : Command.Writer) :
    Like T (.execute (.sign key action validity) w) (ofText w x) (ofText w y) := by
  cases h with
  | ok h => exact .written h
  | error failure => exact .same _

end Seen

namespace Client

section Play

variable {T : String → String → Prop} {step : Step}

theorem shown_related {Q : α → β → Prop} {see : α → Seen} {see' : β → Seen} {x : α × Session σ}
    {y : β × Session τ} (h : Alike R Q x y)
    (hsee : ∀ a b, Q a b → Seen.Like T step (see a) (see' b)) :
    Alike R (Seen.Like T step) (shown see x) (shown see' y) := by
  cases h with
  | intro h hs => exact .intro (hsee _ _ h) hs

theorem shown_like {see : α → Seen} {x : α × Session σ} {y : α × Session τ} (h : Alike R Eq x y) :
    Alike R (Seen.Like T step) (shown see x) (shown see y) :=
  shown_related h fun a _ heq => heq ▸ .same (see a)

theorem andWrite_like {pieces : α → List Bytes} {x : Except Failure α × Session σ}
    {y : Except Failure α × Session τ} (h : Alike R Eq x y) :
    Alike R Eq (Command.andWrite pieces x) (Command.andWrite pieces y) := by
  obtain ⟨a, s, t, rfl, rfl, hs⟩ := h.same
  exact .intro rfl hs

theorem play_execute (c : Client σ) (s : Session σ) (command : Command) (w : Command.Writer) :
    c.play s (.execute command w) = shown (Seen.settled w) (Command.work c command s) := by
  rw [play, Command.execute]
  obtain ⟨result, after⟩ := Command.work c command s
  match result with
  | .error failure => rfl
  | .ok (.silent outcome) => rfl
  | .ok (.write pieces) =>
    simp only [shown, Seen.settled]
    generalize w.writeAll pieces = out
    obtain ⟨result, w⟩ := out
    cases result <;> rfl

-- A signed URL is written as a text.
theorem shown_sign (c : Client σ) (s : Session σ) (key action : String) (validity : Span)
    (w : Command.Writer) :
    shown (Seen.settled w) (Command.work c (.sign key action validity) s) =
      shown (Seen.ofText w) (c.sign key action validity s) := by
  rw [Command.work, Command.andWrite]
  obtain ⟨result, after⟩ := c.sign key action validity s
  cases result with
  | ok text => exact congrArg (·, after) (Seen.settled_text w text)
  | error failure => rfl

variable {U : Url → Url → Prop} {c : Client σ} {d : Client τ} (hlike : Client.Like R U c d)
  (hT : ∀ url url' pair, U url url' →
    T (url.appendQuery [pair]).text (url'.appendQuery [pair]).text)
  {s : Session σ} {t : Session τ} (h : Session.Like R s t)
include hlike hT h

theorem play_execute_like (command : Command) (w : Command.Writer) :
    Alike R (Seen.Like T (.execute command w)) (c.play s (.execute command w))
      (d.play t (.execute command w)) := by
  rw [play_execute, play_execute]
  cases command with
  | put source dest => exact shown_like (andWrite_like (put_like hlike h source dest))
  | get source dest =>
    apply shown_like
    rw [Command.work, Command.work, ← h.files]
    cases s.files.openFile dest .create with
    | error problem => exact .intro rfl h
    | ok opened =>
      exact andWrite_like (get_like hlike (h.withFiles opened.2) source opened.1)
  | delete key => exact shown_like (andWrite_like (delete_like hlike h key))
  | deleteRecursive under => exact shown_like (andWrite_like (deleteRecursive_like hlike h under))
  | exist key =>
    apply shown_like
    obtain ⟨existence, s', t', hs, ht, hafter⟩ := (existence_like hlike h key).same
    simp only [Command.work, hs, ht]
    cases existence <;> exact .intro rfl hafter
  | sign key action validity =>
    rw [shown_sign, shown_sign]
    exact shown_related (sign_like hlike h hT key action validity) fun _ _ hresult =>
      Seen.like_ofText hresult key action validity w
  | list under => exact shown_like (andWrite_like (list_like hlike h under))
  | copy source dest => exact shown_like (andWrite_like (copy_like hlike h source dest))

variable (hU : ∀ url url', U url url' → T url.text url'.text)
include hU

omit hT in
theorem playCall_like (call : Backend.Call) :
    Alike R (Seen.Like T step) (c.playCall s call) (d.playCall t call) := by
  cases call with
  | upload key source => exact shown_like (h.call _ _ (hlike.backend.upload h.store key source))
  | download key => exact shown_like (h.call _ _ (hlike.backend.download h.store key))
  | remove key => exact shown_like (h.call _ _ (hlike.backend.remove h.store key))
  | properties key => exact shown_like (h.call _ _ (hlike.backend.properties h.store key))
  | signedUrl key permissions expiry =>
    exact shown_related (h.call _ _ (hlike.backend.signedUrl h.store key permissions expiry))
      fun _ _ hresult => Seen.like_signed (hresult.map hU)
  | page under marker => exact shown_like (h.call _ _ (hlike.backend.page h.store under marker))
  | copy source dest => exact shown_like (h.call _ _ (hlike.backend.copy h.store source dest))

-- Whatever is asked for, it shows alike.
theorem play_like (step : Step) :
    Alike R (Seen.Like T step) (c.play s step) (d.play t step) := by
  cases step with
  | put path key => exact shown_like (put_like hlike h path key)
  | get key dest mode =>
    rw [play, play, ← h.files]
    cases s.files.openFile dest mode with
    | error problem => exact .intro (.same _) h
    | ok opened => exact shown_like (get_like hlike (h.withFiles opened.2) key opened.1)
  | delete key => exact shown_like (delete_like hlike h key)
  | deleteRecursive under => exact shown_like (deleteRecursive_like hlike h under)
  | exist key => exact shown_like (existence_like hlike h key)
  | sign key action validity =>
    exact shown_related (sign_like hlike h hT key action validity) fun _ _ hresult =>
      Seen.like_signed hresult
  | list under => exact shown_like (list_like hlike h under)
  | copy source dest => exact shown_like (copy_like hlike h source dest)
  | execute command w => exact play_execute_like hlike hT h command w
  | call call => exact playCall_like hlike h hU call
  | upload path key =>
    rw [play, play, ← h.files]
    match s.files.read path with
    | .ok content => exact playCall_like hlike h hU (.upload key (.ok content))
    | .error .isDirectory => exact playCall_like hlike h hU (.upload key (.error .isDirectory))
    | .error .missing | .error .notDirectory | .error .badDescriptor | .error .invalidArgument
    | .error .nulInPath | .error (.other _) => exact .intro (.same _) h
  | download key dest mode =>
    rw [play, play, ← h.files]
    cases s.files.openFile dest mode with
    | error problem => exact .intro (.same _) h
    | ok opened => exact shown_like (download_like hlike (h.withFiles opened.2) key opened.1)
  | read path =>
    rw [play, play, ← h.files]
    exact .intro (.same _) h
  | files change =>
    rw [play, play, ← h.files]
    exact .intro (.same _) (h.withFiles (change s.files))

end Play

end Client

end BlobStorage
