import BlobStorage.Command.Perform

-- The output of commands: whatever room there is for it, the work done is the same, and what there is
-- room for is written.
namespace BlobStorage.Command

namespace Writer

-- As much of some bytes as there is room for.
def accepted (w : Writer) (bytes : Bytes) : Bytes :=
  match w.room with
  | none => bytes
  | some room => bytes.take room

-- Whether the room does not outlast some bytes and the flush behind them.
def runsOut (w : Writer) (bytes : Bytes) : Bool := w.room.any fun room => room ≤ bytes.length

-- The writer when it has got some bytes, or as many as it takes.
def behind (w : Writer) (bytes : Bytes) : Writer :=
  ⟨w.room.map (· - bytes.length), w.written ++ w.accepted bytes⟩

theorem write_eq (w : Writer) (bytes : Bytes) :
    w.write bytes =
      (if w.room.any (· < bytes.length) then .error full else .ok (), w.behind bytes) := by
  obtain ⟨room, written⟩ := w
  cases room with
  | none => rfl
  | some room =>
    by_cases hfits : bytes.length ≤ room
    · have hroom : ¬room < bytes.length := by omega
      simp [write, behind, accepted, hfits, hroom]
    · have hroom : room < bytes.length := by omega
      simp [write, behind, accepted, hfits, hroom]

theorem behind_nil (w : Writer) : w.behind [] = w := by
  obtain ⟨room, written⟩ := w
  cases room <;> simp [behind, accepted]

theorem behind_append (w : Writer) (front rest : Bytes) :
    (w.behind front).behind rest = w.behind (front ++ rest) := by
  obtain ⟨room, written⟩ := w
  cases room with
  | none => simp [behind, accepted]
  | some room =>
    have hroom : room - front.length - rest.length = room - (front.length + rest.length) := by omega
    simp [behind, accepted, List.take_append, hroom]

theorem runsOut_behind (w : Writer) (front rest : Bytes) :
    (w.behind front).runsOut rest = w.runsOut (front ++ rest) := by
  obtain ⟨room, written⟩ := w
  cases room with
  | none => rfl
  | some room =>
    have hroom : room - front.length ≤ rest.length ↔ room ≤ front.length + rest.length := by omega
    simp [runsOut, behind, hroom]

-- A piece that there is no room for fills the writer, so that what follows it would add nothing.
theorem behind_of_full {w : Writer} {front : Bytes} (h : w.room.any (· < front.length) = true)
    (rest : Bytes) : w.behind front = w.behind (front ++ rest) ∧ w.runsOut (front ++ rest) = true := by
  obtain ⟨room, written⟩ := w
  cases room with
  | none => exact nomatch h
  | some room =>
    have hfull : room < front.length := of_decide_eq_true h
    have hroom : room - front.length = room - (front.length + rest.length) := by omega
    have htake : room - front.length = 0 := by omega
    have hout : room ≤ front.length + rest.length := by omega
    simp [behind, accepted, runsOut, List.take_append, htake, hout, ← hroom]

-- Writing piece by piece is writing everything at once.
theorem writeAll_eq (w : Writer) (pieces : List Bytes) :
    w.writeAll pieces =
      (if w.runsOut pieces.flatten then .error full else .ok (), w.behind pieces.flatten) := by
  induction pieces generalizing w with
  | nil =>
    rw [writeAll, flush, List.flatten_nil, behind_nil]
    obtain ⟨room, written⟩ := w
    cases room <;> simp [runsOut]
  | cons piece pieces ih =>
    rw [writeAll, write_eq, List.flatten_cons]
    cases hfull : w.room.any (· < piece.length) with
    | true =>
      obtain ⟨hbehind, hout⟩ := behind_of_full hfull pieces.flatten
      simp only [if_true, hout, hbehind]
    | false =>
      simp only [Bool.false_eq_true, if_false, ih, runsOut_behind, behind_append]

-- The room ends within the second name.
example : (writeAll ⟨some 4, []⟩ (lines ["a", "bcd"])).2.written = Text.utf8 "a\nbc" := by decide

end Writer

variable {σ : Type}

-- What a command has to say that was carried out: an outcome alone, or a text behind which the output
-- is flushed, the empty text too.
inductive Said where
  | nothing (outcome : Outcome)
  | text (s : String)

def saying {α : Type} (say : α → String) (done : Except Failure α × Session σ) :
    Except Failure Said × Session σ :=
  (done.1.map fun value => .text (say value), done.2)

-- The client's operation that a command stands for, and what there is to say about its result.
def operation (c : Client σ) (s : Session σ) : Command → Except Failure Said × Session σ
  | .put source dest => saying (fun _ => "") (c.put source dest s)
  | .get source dest =>
    match s.files.openFile dest .create with
    | .error problem => (.error (.io problem), s)
    | .ok (handle, files) => saying (fun _ => "") (c.get source handle { s with files := files })
  | .delete key => saying (fun _ => "") (c.delete key s)
  | .deleteRecursive under => saying (fun _ => "") (c.deleteRecursive under s)
  | .exist key =>
    match c.existence key s with
    | (.present, s) => (.ok (.nothing .success), s)
    | (.absent, s) => (.ok (.nothing .notFound), s)
    | (.unknown failure, s) => (.error failure, s)
  | .sign key action validity => saying id (c.sign key action validity s)
  | .list under => saying (fun names => String.join (names.map (· ++ "\n"))) (c.list under s)
  | .copy source dest => saying (fun _ => "") (c.copy source dest s)

-- What is left to do says the same.
inductive Says : Except Failure Rest → Except Failure Said → Prop
  | failed (failure : Failure) : Says (.error failure) (.error failure)
  | nothing (outcome : Outcome) : Says (.ok (.silent outcome)) (.ok (.nothing outcome))
  | text {pieces : List Bytes} {s : String} (h : pieces.flatten = Text.utf8 s) :
    Says (.ok (.write pieces)) (.ok (.text s))

theorem andWrite_said {α : Type} {pieces : α → List Bytes} {say : α → String}
    (h : ∀ value, (pieces value).flatten = Text.utf8 (say value))
    (done : Except Failure α × Session σ) :
    Says (andWrite pieces done).1 (saying say done).1 ∧
      (andWrite pieces done).2 = (saying say done).2 := by
  obtain ⟨result, s⟩ := done
  cases result with
  | error failure => exact ⟨.failed failure, rfl⟩
  | ok value => exact ⟨.text (h value), rfl⟩

theorem andWrite_silent {α : Type} (done : Except Failure α × Session σ) :
    Says (andWrite (fun _ => []) done).1 (saying (fun _ => "") done).1 ∧
      (andWrite (fun _ => []) done).2 = (saying (fun _ => "") done).2 := by
  have hempty : ([] : List Bytes).flatten = Text.utf8 "" := rfl
  exact andWrite_said (fun _ => hempty) done

theorem flatten_lines (names : List String) :
    (lines names).flatten = Text.utf8 (String.join (names.map (· ++ "\n"))) := by
  induction names with
  | nil => rfl
  | cons name names ih =>
    have hlines : lines (name :: names) = Text.utf8 name :: [10] :: lines names := rfl
    rw [hlines, List.flatten_cons, List.flatten_cons, ih]
    simp [Text.utf8, String.join_cons, List.flatMap_append]
    rfl

theorem work_said (c : Client σ) (command : Command) (s : Session σ) :
    Says (work c command s).1 (operation c s command).1 ∧
      (work c command s).2 = (operation c s command).2 := by
  cases command with
  | put source dest => exact andWrite_silent _
  | get source dest =>
    rw [work, operation]
    cases s.files.openFile dest .create with
    | error problem => exact ⟨.failed _, rfl⟩
    | ok opened => exact andWrite_silent _
  | delete key => exact andWrite_silent _
  | deleteRecursive under => exact andWrite_silent _
  | exist key =>
    rw [work, operation]
    obtain ⟨existence, s⟩ := c.existence key s
    cases existence with
    | present => exact ⟨.nothing _, rfl⟩
    | absent => exact ⟨.nothing _, rfl⟩
    | unknown failure => exact ⟨.failed _, rfl⟩
  | sign key action validity => exact andWrite_said (fun url => List.append_nil _) _
  | list under => exact andWrite_said flatten_lines _
  | copy source dest => exact andWrite_silent _

-- How a command goes that has a writer for its output.
structure Executed (c : Client σ) (command : Command) (w : Writer) (s : Session σ) : Prop where
  -- The store with the calls that it has noted, the files and the events are those of the operation.
  session : (execute c command w s).2.2 = (operation c s command).2
  failed : ∀ failure, (operation c s command).1 = .error failure →
    (execute c command w s).1 = .error failure ∧ (execute c command w s).2.1 = w
  said : ∀ text, (operation c s command).1 = .ok (.text text) →
    (execute c command w s).2.1.written = w.written ++ w.accepted (Text.utf8 text) ∧
      (execute c command w s).1 =
        if w.runsOut (Text.utf8 text) then .error (.io Writer.full) else .ok .success
  nothing : ∀ outcome, (operation c s command).1 = .ok (.nothing outcome) →
    (execute c command w s).1 = .ok outcome ∧ (execute c command w s).2.1 = w
  exist : ∀ key, command = .exist key →
    (execute c command w s).2.1 = w ∧
      ((execute c command w s).1 = .ok .notFound ↔ (c.existence key s).1 = .absent)

section Executed

variable (c : Client σ) (command : Command) (w : Writer) (s : Session σ)

-- What is made of what there is to say.
def concluded (w : Writer) : Except Failure Said → Except Failure Outcome × Writer
  | .error failure => (.error failure, w)
  | .ok (.nothing outcome) => (.ok outcome, w)
  | .ok (.text text) =>
    (if w.runsOut (Text.utf8 text) then .error (.io Writer.full) else .ok .success,
      w.behind (Text.utf8 text))

theorem execute_eq :
    execute c command w s =
      ((concluded w (operation c s command).1).1, (concluded w (operation c s command).1).2,
        (operation c s command).2) := by
  obtain ⟨hsaid, hsession⟩ := work_said c command s
  rw [execute, ← hsession]
  generalize work c command s = done at hsaid
  generalize (operation c s command).1 = told at hsaid
  obtain ⟨rest, after⟩ := done
  cases hsaid with
  | failed failure => rfl
  | nothing outcome => rfl
  | @text pieces text hflatten =>
    simp only [Writer.writeAll_eq, hflatten, concluded]
    cases w.runsOut (Text.utf8 text) <;> rfl

-- The work is done before anything is written, so that the writer has no part in it: what it takes is
-- a start of the text, and only the result tells that it took no more.
theorem executed : Executed c command w s where
  session := by rw [execute_eq]
  failed failure h := by
    rw [execute_eq, h]
    exact ⟨rfl, rfl⟩
  said text h := by
    rw [execute_eq, h]
    exact ⟨rfl, rfl⟩
  nothing outcome h := by
    rw [execute_eq, h]
    exact ⟨rfl, rfl⟩
  exist := by
    rintro key rfl
    rw [execute_eq, operation]
    obtain ⟨existence, after⟩ := c.existence key s
    cases existence <;> simp [concluded]

end Executed

end BlobStorage.Command
