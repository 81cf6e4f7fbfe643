import BlobStorage.Bytes
import BlobStorage.Text.Split

namespace BlobStorage

namespace Files

inductive Problem where
  | missing
  | isDirectory
  | notDirectory
  | badDescriptor
  | invalidArgument
  | nulInPath
  | other (text : String)
  deriving DecidableEq, Repr

def Problem.message : Problem → String
  | .missing => "No such file or directory (os error 2)"
  | .isDirectory => "Is a directory (os error 21)"
  | .notDirectory => "Not a directory (os error 20)"
  | .badDescriptor => "Bad file descriptor (os error 9)"
  | .invalidArgument => "Invalid argument (os error 22)"
  | .nulInPath => "file name contained an unexpected NUL byte"
  | .other text => text

inductive Node where
  | file (content : Bytes)
  | folder
  deriving DecidableEq, Repr

end Files

-- What is known of the files, each with the names that lead to it from the working directory. Outside it
-- the first name is `..` or, from the root, `/`.
structure Files where
  nodes : List (List String × Files.Node)
  deriving DecidableEq, Repr

namespace Files

def empty : Files := ⟨[]⟩

def node? (files : Files) (place : List String) : Option Node :=
  if place = [] then some .folder else files.nodes.lookup place

def set (files : Files) (place : List String) (node : Node) : Files :=
  ⟨files.nodes.filter (·.1 ≠ place) ++ [(place, node)]⟩

def contentAt (files : Files) (place : List String) : Bytes :=
  match files.node? place with
  | some (.file content) => content
  | _ => []

def start (path : String) : List String := if path.toList.head? = some '/' then ["/"] else []

-- The parts of a path between slashes. A slash at the end asks for a folder, as a dot would.
def parts (path : String) : List String :=
  let pieces := Text.split '/' path
  pieces.filter (· ≠ "") ++ (if pieces.getLast? = some "" then ["."] else [])

-- What a path leads to: a node, or a name that is still free in a folder.
inductive Target where
  | file (place : List String) (content : Bytes)
  | folder (place : List String)
  | free (place : List String)

-- Where nothing is known there are folders, and it is not known what they hold.
def outside (parts : List String) : Except Problem Target :=
  if parts.all fun part => part == "." || part == ".." then .ok (.folder []) else .error .missing

-- The folder above a place, if it is known. Nothing is above the root.
def above? (files : Files) (place : List String) : Option (List String) :=
  if place = ["/"] then some place
  else if place.all (· == "..") then
    if (files.node? (place ++ [".."])).isSome then some (place ++ [".."]) else none
  else some place.dropLast

def follow (files : Files) (place : List String) : List String → Except Problem Target
  | [] => .ok (.folder place)
  | part :: rest =>
    if part = "." then follow files place rest
    else if part = ".." then
      match files.above? place with
      | some up => follow files up rest
      | none => outside rest
    else
      match files.node? (place ++ [part]), rest with
      | some .folder, _ => follow files (place ++ [part]) rest
      | some (.file content), [] => .ok (.file (place ++ [part]) content)
      | some (.file _), _ :: _ => .error .notDirectory
      | none, [] => .ok (.free (place ++ [part]))
      | none, _ :: _ => .error .missing

def find (files : Files) (path : String) : Except Problem Target :=
  if path.toList.contains '\x00' then .error .nulInPath
  else if path = "" then .error .missing
  else if (files.node? (start path)).isNone then outside (parts path)
  else files.follow (start path) (parts path)

-- The content of the file that a path leads to. A folder can be opened but not read.
def read (files : Files) (path : String) : Except Problem Bytes :=
  match files.find path with
  | .ok (.file _ content) => .ok content
  | .ok (.folder _) => .error .isDirectory
  | .ok (.free _) => .error .missing
  | .error problem => .error problem

inductive Mode where
  | create
  | existing
  | append
  | readOnly
  deriving DecidableEq, Repr

-- An open file. Writing starts at its beginning, or at its end when it was opened to append.
structure Handle where
  place : List String
  mode : Mode
  deriving DecidableEq, Repr

-- Opens a file. Only `create` makes one that is not there, and empties one that is.
def openFile (files : Files) (path : String) (mode : Mode) : Except Problem (Handle × Files) :=
  match files.find path with
  | .error problem => .error problem
  | .ok (.folder _) => .error .isDirectory
  | .ok (.free place) =>
    if mode = .create then .ok (⟨place, mode⟩, files.set place (.file [])) else .error .missing
  | .ok (.file place _) =>
    .ok (⟨place, mode⟩, if mode = .create then files.set place (.file []) else files)

-- Writes bytes into an open file. Nothing at all can be written into any file.
def write (files : Files) (handle : Handle) (bytes : Bytes) : Except Problem Files :=
  if bytes = [] then .ok files
  else
    let old := files.contentAt handle.place
    match handle.mode with
    | .readOnly => .error .badDescriptor
    | .append => .ok (files.set handle.place (.file (old ++ bytes)))
    | .create | .existing => .ok (files.set handle.place (.file (Bytes.overlay bytes old)))

def length (files : Files) (handle : Handle) : Nat := (files.contentAt handle.place).length

-- Cuts an open file, or fills it up with zeros, to a length.
def setLength (files : Files) (handle : Handle) (size : Nat) : Except Problem Files :=
  if handle.mode = .readOnly then .error .invalidArgument
  else .ok (files.set handle.place (.file (Bytes.resize size (files.contentAt handle.place))))

def names (path : String) : List String := start path ++ (parts path).filter (· ≠ ".")

def makeFoldersTo (files : Files) (place : List String) : Files :=
  (List.range place.length).foldl
    (fun files i =>
      if (files.node? (place.take (i + 1))).isSome then files
      else files.set (place.take (i + 1)) .folder)
    files

def makeFolders (files : Files) (path : String) : Files := files.makeFoldersTo (names path)

def store (files : Files) (path : String) (content : Bytes) : Files :=
  let files := files.makeFoldersTo (names path).dropLast
  match files.find path with
  | .ok (.file place _) => files.set place (.file content)
  | .ok (.free place) => files.set place (.file content)
  | _ => files

end Files

end BlobStorage
