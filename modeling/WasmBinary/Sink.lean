import WasmBinary.Counted

/-!
# Growing byte strings

A sink takes bytes at its end.  What is already in it never changes, and a writing that fails
leaves it as it was.
-/

namespace WasmBinary

structure Sink where
  bytes : Bytes := []
deriving DecidableEq

namespace Sink

def size (sink : Sink) : Nat :=
  sink.bytes.length

def isEmpty (sink : Sink) : Bool :=
  sink.bytes.isEmpty

def write (sink : Sink) (bytes : Bytes) : Sink :=
  ⟨sink.bytes ++ bytes⟩

/-- Put at the end what has been encoded, if it could be. -/
def writeEncoded (sink : Sink) (encoded : Except ModuleError Bytes) : Except ModuleError Sink :=
  encoded.map sink.write

def clear (_ : Sink) : Sink :=
  {}

@[simp] theorem bytes_write (sink : Sink) (bytes : Bytes) :
    (sink.write bytes).bytes = sink.bytes ++ bytes := rfl

@[simp] theorem bytes_clear (sink : Sink) : sink.clear.bytes = [] := rfl

end Sink

end WasmBinary
