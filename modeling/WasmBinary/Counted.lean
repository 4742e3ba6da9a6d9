import WasmBinary.Varint.Reader
import WasmBinary.Varint.Writer

/-!
# Counts and lengths in front

Whatever has no fixed size in the format has its count or length in front, as an integer of 32
bits.  A size that does not fit makes the writing fail; nothing is ever cut short.

The sizes are checked from the outside in and from left to right: a vector's count before its
entries, and the text of a length-prefixed string before its length.
-/

namespace WasmBinary

/-- A size as the 32-bit integer that goes in front. -/
def checkedLength (n : Nat) : Except ModuleError UInt32 :=
  if n < 0x100000000 then .ok (UInt32.ofNat n) else .error (.payloadTooLarge n)

def encodeCount (n : Nat) : Except ModuleError Bytes :=
  (checkedLength n).map encodeIndex

def lengthPrefixed (bytes : Bytes) : Except ModuleError Bytes := do
  let length ← encodeCount bytes.length
  return length ++ bytes

/-- A name is its UTF-8 text with the length in front. -/
def encodeName (name : String) : Except ModuleError Bytes :=
  lengthPrefixed name.toUTF8.data.toList

/-- A vector is the count of its entries and then each entry. -/
def encodeVector {α : Type} (encode : α → Except ModuleError Bytes) (entries : List α) :
    Except ModuleError Bytes := do
  let count ← encodeCount entries.length
  let encoded ← entries.mapM encode
  return count ++ encoded.flatten

/-- The entries of a section: a vector, or nothing at all when there are none. -/
def encodeEntries {α : Type} (encode : α → Except ModuleError Bytes) (entries : List α) :
    Except ModuleError Bytes :=
  if entries.isEmpty then .ok [] else encodeVector encode entries

/-! ## When sizes fit -/

theorem checkedLength_of_lt {n : Nat} (h : n < 0x100000000) :
    checkedLength n = .ok (UInt32.ofNat n) :=
  if_pos h

theorem checkedLength_of_le {n : Nat} (h : 0x100000000 ≤ n) :
    checkedLength n = .error (.payloadTooLarge n) :=
  if_neg (Nat.not_lt.2 h)

@[simp] theorem encodeEntries_nil {α : Type} (encode : α → Except ModuleError Bytes) :
    encodeEntries encode [] = .ok [] := rfl

end WasmBinary
