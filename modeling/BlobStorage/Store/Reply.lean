import BlobStorage.Failure

-- What an operation on a store gives, with the events that it notes on the way.
namespace BlobStorage

inductive Level where
  | debug
  | info
  | warn
  | error
  deriving DecidableEq, Repr

def Level.name : Level → String
  | .debug => "DEBUG"
  | .info => "INFO"
  | .warn => "WARN"
  | .error => "ERROR"

-- Something worth noting: a text that is always the same, and the values that belong to it by name.
structure Event where
  level : Level
  text : String
  fields : List (String × String)
  deriving DecidableEq, Repr

namespace Event

def debug (text : String) (fields : List (String × String)) : Event := ⟨.debug, text, fields⟩

def info (text : String) (fields : List (String × String)) : Event := ⟨.info, text, fields⟩

def warn (text : String) (fields : List (String × String)) : Event := ⟨.warn, text, fields⟩

def error (text : String) (fields : List (String × String)) : Event := ⟨.error, text, fields⟩

def line (event : Event) : String := event.level.name ++ " " ++ event.text

end Event

structure Reply (σ α : Type) where
  result : Except Failure α
  events : List Event
  store : σ

namespace Reply

variable {σ α β : Type}

def done (store : σ) (value : α) : Reply σ α := ⟨.ok value, [], store⟩

def failed (store : σ) (failure : Failure) : Reply σ α := ⟨.error failure, [], store⟩

def noting (event : Event) (reply : Reply σ α) : Reply σ α :=
  { reply with events := event :: reply.events }

def andThen (reply : Reply σ α) (next : α → σ → Reply σ β) : Reply σ β :=
  match reply.result with
  | .error failure => ⟨.error failure, reply.events, reply.store⟩
  | .ok value =>
    let more := next value reply.store
    { more with events := reply.events ++ more.events }

end Reply

end BlobStorage
