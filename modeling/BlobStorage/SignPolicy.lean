import BlobStorage.Failure
import BlobStorage.Time.Span

namespace BlobStorage

-- The server-side timeouts of signed URLs. Writing through a signed URL takes longer than reading,
-- so write URLs have the longer window.
structure SignPolicy where
  read : Span
  write : Span
  read_pos : 0 < read.nanos := by decide
  read_lt_write : read.nanos < write.nanos := by decide

namespace SignPolicy

def standard : SignPolicy where
  read := ⟨1800000000000⟩
  write := ⟨2700000000000⟩

instance : Inhabited SignPolicy := ⟨standard⟩

def new (read write : Span) : Except Failure SignPolicy :=
  if h : 0 < read.nanos then
    if h' : read.nanos < write.nanos then .ok ⟨read, write, h, h'⟩
    else
      .error (.invalidConfig ("signed_url_put_timeout (" ++ Nat.repr write.seconds
        ++ "s) must be longer than signed_url_get_timeout (" ++ Nat.repr read.seconds ++ "s)"))
  else .error (.invalidConfig "signed_url_get_timeout must be greater than zero")

end SignPolicy

end BlobStorage
