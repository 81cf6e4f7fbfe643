import BlobStorage.Time.Span

namespace BlobStorage

inductive Command where
  | put (source dest : String)
  | get (source dest : String)
  | delete (key : String)
  | deleteRecursive (under : String)
  | exist (key : String)
  | sign (key action : String) (validity : Span)
  | list (under : String)
  | copy (source dest : String)
  deriving DecidableEq, Repr

namespace Command

def name : Command → String
  | .put .. => "put"
  | .get .. => "get"
  | .delete .. => "delete"
  | .deleteRecursive .. => "delete-recursive"
  | .exist .. => "exists"
  | .sign .. => "sign"
  | .list .. => "list"
  | .copy .. => "copy"

end Command

-- How a command ended that did not fail. An absent blob is no failure, but has a status of its own.
inductive Outcome where
  | success
  | notFound
  deriving DecidableEq, Repr

def Outcome.exitCode : Outcome → Nat
  | .success => 0
  | .notFound => 3

end BlobStorage
