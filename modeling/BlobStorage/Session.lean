import BlobStorage.Files.Basic
import BlobStorage.Store.Backend

namespace BlobStorage

-- What operations work on: the store, the local files, and the events noted so far in order.
structure Session (σ : Type) where
  store : σ
  files : Files
  events : List Event

namespace Session

variable {σ α : Type}

def note (s : Session σ) (event : Event) : Session σ := { s with events := s.events ++ [event] }

def call (s : Session σ) (operation : σ → Reply σ α) : Except Failure α × Session σ :=
  let reply := operation s.store
  (reply.result, { s with store := reply.store, events := s.events ++ reply.events })

theorem call_result (s : Session σ) (operation : σ → Reply σ α) :
    (s.call operation).1 = (operation s.store).result := rfl

theorem call_store (s : Session σ) (operation : σ → Reply σ α) :
    (s.call operation).2.store = (operation s.store).store := rfl

theorem call_files (s : Session σ) (operation : σ → Reply σ α) :
    (s.call operation).2.files = s.files := rfl

theorem call_events (s : Session σ) (operation : σ → Reply σ α) :
    (s.call operation).2.events = s.events ++ (operation s.store).events := rfl

theorem note_store (s : Session σ) (event : Event) : (s.note event).store = s.store := rfl

theorem note_files (s : Session σ) (event : Event) : (s.note event).files = s.files := rfl

end Session

end BlobStorage
