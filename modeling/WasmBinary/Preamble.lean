import WasmBinary.Bytes

/-!
# The preamble

Every module starts with the same eight bytes: a magic number and the version of the format.
-/

namespace WasmBinary

/-- A zero byte and the letters `asm`. -/
def magic : Bytes :=
  [0x00, 0x61, 0x73, 0x6d]

def version : UInt32 :=
  1

def preamble : Bytes :=
  magic ++ encodeWord version

@[simp] theorem length_preamble : preamble.length = 8 := rfl

end WasmBinary
