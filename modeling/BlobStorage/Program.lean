import BlobStorage.Command.Arguments
import BlobStorage.Command.Perform
import BlobStorage.Configuration.Document
import BlobStorage.Failure
import BlobStorage.Service.Operations

-- The program from its command line to its exit status.
namespace BlobStorage.Program

-- What the program finds around it. The address of the service may be given in place of the account's
-- own.
structure Surroundings where
  address : Option String
  now : Instant
  files : Files
  wire : Service.Wire

structure Ending where
  status : Nat
  output : Bytes
  report : String
  session : Session Service.Wire

def version : String := "azure-storage-cli 0.1.0"

def clientOf (c : Configuration) (around : Surroundings) : Except Failure (Client Service.Wire) := do
  let endpoint ← Service.Endpoint.new c around.address around.now
  let policy ← c.signPolicy
  .ok ⟨Service.backend endpoint, policy⟩

-- What is noted before any command: that there is an endpoint.
def opening (c : Configuration) (around : Surroundings) : List Event :=
  match Service.Endpoint.new c around.address around.now with
  | .ok endpoint => [endpoint.created]
  | .error _ => []

structure Trouble where
  failure : Failure
  contexts : List String

def Trouble.text (t : Trouble) : String :=
  Report.text (Report.withContexts t.failure.chain t.contexts)

def carryOut (around : Surroundings) (invocation : Command.Invocation) :
    Except Trouble Outcome × Command.Writer × Session Service.Wire :=
  let writer : Command.Writer := ⟨none, []⟩
  let session : Session Service.Wire := ⟨around.wire, around.files, []⟩
  match Configuration.ofFile (around.files.read invocation.config) with
  | .error failure =>
    (.error ⟨failure, ["loading configuration from " ++ invocation.config]⟩, writer, session)
  | .ok configuration =>
    let session := { session with events := opening configuration around }
    match clientOf configuration around with
    | .error failure => (.error ⟨failure, []⟩, writer, session)
    | .ok client =>
      match Command.execute client invocation.command writer session with
      | (.ok outcome, writer, session) => (.ok outcome, writer, session)
      | (.error failure, writer, session) =>
        (.error ⟨failure, ["performing operation " ++ invocation.command.name]⟩, writer, session)

-- Runs the program. Refused command lines have texts that are not part of this library, but for the
-- version.
def run (args : List String) (around : Surroundings) : Ending :=
  match Command.parse args with
  | .error refusal =>
    let output := if refusal = .version then Text.utf8 (version ++ "\n") else []
    ⟨refusal.exitCode, output, "", ⟨around.wire, around.files, []⟩⟩
  | .ok invocation =>
    match carryOut around invocation with
    | (.ok outcome, writer, session) => ⟨outcome.exitCode, writer.written, "", session⟩
    | (.error trouble, writer, session) => ⟨1, writer.written, trouble.text, session⟩

end BlobStorage.Program
