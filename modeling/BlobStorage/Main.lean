import BlobStorage.Program
import Std.Time.DateTime.Timestamp

-- The command line. There is no service behind it that would listen, so that requests end as they do
-- when a service cannot be reached.
namespace BlobStorage.Disk

def pathOf (place : List String) : String := "/".intercalate place

def node? (place : List String) : IO (Option Files.Node) :=
  try
    let content ← IO.FS.readBinFile (pathOf place)
    return some (.file content.toList)
  catch
    | .inappropriateType .. => return some .folder
    | _ => return none

-- Adds what is found on the way to a path.
def explore (files : Files) (path : String) : IO Files :=
  let names := Files.names path
  (List.range names.length).foldlM
    (fun files i => do
      match ← node? (names.take (i + 1)) with
      | some node => return files.set (names.take (i + 1)) node
      | none => return files)
    files

def update (before after : Files) : IO Unit := do
  for (place, node) in after.nodes do
    match node with
    | .file content =>
      if before.node? place ≠ some node then
        IO.FS.writeBinFile (pathOf place) (ByteArray.mk content.toArray)
    | .folder => pure ()

def pathsIn (args : List String) : List String :=
  match Command.parse args with
  | .ok invocation =>
    invocation.config :: (match invocation.command with
      | .put source _ => [source]
      | .get _ dest => [dest]
      | _ => [])
  | .error _ => []

end BlobStorage.Disk

namespace BlobStorage

def wallClock : IO Instant := do
  let now ← Std.Time.Timestamp.now
  return ⟨now.toNanosecondsSinceUnixEpoch.val⟩

end BlobStorage

open BlobStorage

def main (args : List String) : IO UInt32 := do
  let before ← (Disk.pathsIn args).foldlM Disk.explore Files.empty
  let around : Program.Surroundings :=
    ⟨← IO.getEnv "AZURE_STORAGE_SERVICE_URL", ← wallClock, before, ⟨false, [], [], .absolute⟩⟩
  let ending := Program.run args around
  Disk.update before ending.session.files
  for event in ending.session.events do
    if event.level ≠ .debug then IO.eprintln event.line
  let out ← IO.getStdout
  out.write (ByteArray.mk ending.output.toArray)
  out.flush
  IO.eprint ending.report
  return UInt32.ofNat ending.status
