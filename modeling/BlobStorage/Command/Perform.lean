import BlobStorage.Client
import BlobStorage.Command.Basic

-- Carrying out commands. What a command has to say is written when its work is done, so that nothing
-- about the output can change the work.
namespace BlobStorage.Command

-- Where output goes. There may be room for so many bytes only; behind them everything fails.
structure Writer where
  room : Option Nat
  written : Bytes

namespace Writer

def full : Files.Problem := .other "writer is full"

def write (w : Writer) (bytes : Bytes) : Except Files.Problem Unit × Writer :=
  match w.room with
  | none => (.ok (), { w with written := w.written ++ bytes })
  | some room =>
    (if bytes.length ≤ room then .ok () else .error full,
      { room := some (room - bytes.length), written := w.written ++ bytes.take room })

def flush (w : Writer) : Except Files.Problem Unit :=
  if w.room = some 0 then .error full else .ok ()

-- Writes piece by piece and stops at the first one that fails.
def writeAll (w : Writer) : List Bytes → Except Files.Problem Unit × Writer
  | [] => (w.flush, w)
  | piece :: pieces =>
    match w.write piece with
    | (.ok _, w) => w.writeAll pieces
    | (.error problem, w) => (.error problem, w)

end Writer

-- What is left to do when a command's work is done: to say how it went, and to write something before.
inductive Rest where
  | write (pieces : List Bytes)
  | silent (outcome : Outcome)

def lines (names : List String) : List Bytes := names.flatMap fun name => [Text.utf8 name, [10]]

variable {σ : Type}

def andWrite (pieces : α → List Bytes) (done : Except Failure α × Session σ) :
    Except Failure Rest × Session σ :=
  (done.1.map fun value => .write (pieces value), done.2)

def work (c : Client σ) (command : Command) (s : Session σ) : Except Failure Rest × Session σ :=
  match command with
  | .put source dest => andWrite (fun _ => []) (c.put source dest s)
  | .get source dest =>
    match s.files.openFile dest .create with
    | .error problem => (.error (.io problem), s)
    | .ok (handle, files) =>
      andWrite (fun _ => []) (c.get source handle { s with files := files })
  | .delete key => andWrite (fun _ => []) (c.delete key s)
  | .deleteRecursive under => andWrite (fun _ => []) (c.deleteRecursive under s)
  | .exist key =>
    match c.existence key s with
    | (.present, s) => (.ok (.silent .success), s)
    | (.absent, s) => (.ok (.silent .notFound), s)
    | (.unknown failure, s) => (.error failure, s)
  | .sign key action validity =>
    andWrite (fun url => [Text.utf8 url]) (c.sign key action validity s)
  | .list under => andWrite lines (c.list under s)
  | .copy source dest => andWrite (fun _ => []) (c.copy source dest s)

def execute (c : Client σ) (command : Command) (w : Writer) (s : Session σ) :
    Except Failure Outcome × Writer × Session σ :=
  match work c command s with
  | (.error failure, s) => (.error failure, w, s)
  | (.ok (.silent outcome), s) => (.ok outcome, w, s)
  | (.ok (.write pieces), s) =>
    match w.writeAll pieces with
    | (.ok _, w) => (.ok .success, w, s)
    | (.error problem, w) => (.error (.io problem), w, s)

end BlobStorage.Command
