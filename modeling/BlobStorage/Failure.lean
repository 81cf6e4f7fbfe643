import BlobStorage.Checksum
import BlobStorage.Files.Basic
import BlobStorage.Http.Status
import BlobStorage.Url.Parser

-- What can go wrong, and the one line that reports it with its causes.
namespace BlobStorage

-- Everything that can go wrong. A missing blob is a cause of its own, so that nobody has to look at
-- texts to tell it from the others; a missing container is not a missing blob.
inductive Failure where
  | invalidCredentials (text : String)
  | invalidConfig (text : String)
  | badRequest (text : String)
  | forbidden (text : String)
  | containerNotFound (container : String)
  | blobNotFound (key : String)
  | conflict (text : String)
  | http (text : String)
  | unknownStatus (status : Nat) (reason : String)
  | invalidInput (text : String)
  | io (problem : Files.Problem)
  | invalidUrl (problem : Url.Problem)
  | malformedResponse (text : String)
  | checksumMismatch (here there : Checksum)
  | actionNotSupported (action : String)
  | copyFailed (key status : String)
  | deletesFailed (under : String) (failures : List (String × Failure))
  -- The position behind a page does not fit 64 bits.
  | positionOverflow

namespace Failure

def ofStatus (status : Nat) : Failure :=
  .unknownStatus status ((Http.Status.reason? status).getD "Unknown Error")

def required (field : String) : Failure := .invalidInput (field ++ " is required")

def isNotFound : Failure → Bool
  | .blobNotFound _ => true
  | _ => false

-- The text of a failure. Several failed deletes report their count and the first of them.
def message : Failure → String
  | .invalidCredentials text => "Invalid storage account credentials: " ++ text
  | .invalidConfig text => "Invalid configuration: " ++ text
  | .badRequest text => "Invalid request: " ++ text
  | .forbidden text => "Access denied, please check the storage account key: " ++ text
  | .containerNotFound container => "The container '" ++ container ++ "' does not exist"
  | .blobNotFound key => "The blob '" ++ key ++ "' does not exist"
  | .conflict text => "Conflicting operation on the blob: " ++ text
  | .http text => "Internal HTTP error: " ++ text
  | .unknownStatus status reason =>
    "Unknown error from the storage service (" ++ Nat.repr status ++ "): " ++ reason
  | .invalidInput text => "Invalid input: " ++ text
  | .io problem => problem.message
  | .invalidUrl problem => "Invalid URL: " ++ problem.message
  | .malformedResponse text => "Malformed response from the storage service: " ++ text
  | .checksumMismatch here there =>
    "the upload responded an MD5 " ++ there.text ++ " does not match the source file MD5 "
      ++ here.text
  | .actionNotSupported action =>
    "action not implemented: " ++ action ++ ". Available actions are 'get' and 'put'"
  | .copyFailed key status => "copy to '" ++ key ++ "' finished with status '" ++ status ++ "'"
  | .deletesFailed under [] =>
    "failed to delete 0 blob(s) under prefix '" ++ under ++ "', first failure: "
  | .deletesFailed under ((key, first) :: rest) =>
    "failed to delete " ++ Nat.repr (rest.length + 1) ++ " blob(s) under prefix '" ++ under
      ++ "', first failure: " ++ key ++ ": " ++ first.message
  | .positionOverflow => "attempt to add with overflow"

def source? : Failure → Option String
  | .http text => some text
  | .invalidUrl problem => some problem.message
  | _ => none

def chain (failure : Failure) : List String := failure.message :: failure.source?.toList

end Failure

namespace Report

def endsWith (text ending : List Char) : Bool := ending.reverse.isPrefixOf text.reverse

-- A cause that the message in front of it ends with is left out, and one behind an empty message has
-- no separator.
def line : List Char → List (List Char) → List Char
  | _, [] => []
  | previous, message :: causes =>
    (if endsWith previous message then []
     else (if previous = [] then [] else [':', ' ']) ++ message) ++ line message causes

def text (chain : List String) : String :=
  "Error: " ++ String.ofList (line [] (chain.map String.toList)) ++ "\n"

-- Contexts are put around a chain one after the other, so the last is the outermost.
def withContexts (chain contexts : List String) : List String := contexts.reverse ++ chain

end Report

end BlobStorage
