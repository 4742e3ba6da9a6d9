import WasmBinary.Varint.Reader

/-!
# Reading with every operation checked

A reader computes with words: a position has 64 bits, and so has the word that takes the groups; an
amount of shift has 32.  The reader here carries out one operation after another and stops at the
first whose result has no room in its word.  It keeps the index of the group and the amount of shift
apart, as two counters.
-/

namespace WasmBinary.Varint.Checked

/-- What can be wrong with an operation on words. -/
inductive Misstep
  /-- A sum has more bits than its word. -/
  | sum
  /-- More is taken away than there is. -/
  | difference
  /-- The amount of shift is not below the size of what is shifted. -/
  | shift
  /-- All groups that a kind admits have been taken, and there is no answer. -/
  | exhausted
  /-- An integer is not the same in fewer bits. -/
  | narrowing
deriving DecidableEq

/-- The result of an operation, if the operation can be carried out. -/
def require (condition : Prop) [Decidable condition] (misstep : Misstep) {α : Type} (result : α) :
    Except Misstep α :=
  if condition then .ok result else .error misstep

/-- A sum in a word that has so many values. -/
def add (size a b : Nat) : Except Misstep Nat :=
  require (a + b < size) .sum (a + b)

def subtract (a b : Nat) : Except Misstep Nat :=
  require (b ≤ a) .difference (a - b)

def shiftLeft (word : UInt64) (amount : Nat) : Except Misstep UInt64 :=
  require (amount < 64) .shift (word <<< UInt64.ofNat amount)

def shiftRight (word : UInt64) (amount : Nat) : Except Misstep UInt64 :=
  require (amount < 64) .shift (word >>> UInt64.ofNat amount)

def shiftLeftByte (byte : UInt8) (amount : Nat) : Except Misstep UInt8 :=
  require (amount < 8) .shift (byte <<< UInt8.ofNat amount)

/-! ## The last group -/

def admits (kind : Kind) (shift : Nat) (byte : UInt8) : Except Misstep Bool := do
  let spare ← subtract kind.bits shift
  if kind.isSigned then
    let place ← subtract spare 1
    let bit ← shiftLeftByte 1 place
    let below ← subtract bit.toNat 1
    let mask : UInt8 := 0x7f &&& ~~~UInt8.ofNat below
    return byte &&& mask == 0 || byte &&& mask == mask
  else
    let above ← shiftRight (group byte).toUInt64 spare
    return above == 0

def extend (kind : Kind) (shift : Nat) (byte : UInt8) (word : UInt64) : Except Misstep UInt64 :=
  if kind.isSigned ∧ shift < 64 ∧ byte &&& 0x40 ≠ 0 then do
    let sign ← shiftLeft 0xffffffffffffffff shift
    return word ||| sign
  else
    return word

/-! ## All groups -/

/-- A reader between two groups. -/
structure State where
  index : Nat := 0
  shift : Nat := 0
  word : UInt64 := 0
deriving DecidableEq

namespace State

/-- What is wrong with a byte, which depends on its bits only where the kind admits no more groups. -/
def fault? (kind : Kind) (state : State) (byte : UInt8) : Except Misstep (Option Fault) :=
  if state.index = kind.maxLength - 1 then
    if continues byte then .ok (some .overlong)
    else do
      let admitted ← admits kind state.shift byte
      return if admitted then none else some .overflow
  else .ok none

def push (state : State) (byte : UInt8) : Except Misstep State := do
  let high ← shiftLeft (group byte).toUInt64 state.shift
  let shift ← add UInt32.size state.shift 7
  return ⟨state.index + 1, shift, state.word ||| high⟩

end State

def run (kind : Kind) (bytes : Bytes) (offset : Nat) :
    Nat → State → Except Misstep (Except Fault (UInt64 × Nat))
  | 0, _ => .error .exhausted
  | left + 1, state => do
    let position ← add UInt64.size offset state.index
    match bytes[position]? with
    | none => return .error .truncated
    | some byte =>
      match ← state.fault? kind byte with
      | some fault => return .error fault
      | none =>
        let next ← state.push byte
        if continues byte then run kind bytes offset left next
        else
          let word ← extend kind next.shift byte next.word
          return .ok (word, next.index)

/-- The integer that a word is in all its 64 bits. -/
def wideValue (kind : Kind) (word : UInt64) : Int :=
  if kind.isSigned then word.toInt64.toInt else word.toNat

/-- A word in the bits of the kind. -/
def narrow (kind : Kind) (word : UInt64) : Except Misstep Varint :=
  require ((kind.ofWord word).toInt = wideValue kind word) .narrowing (kind.ofWord word)

def read (kind : Kind) (bytes : Bytes) (offset : Nat) :
    Except Misstep (Except Fault (Varint × Nat)) := do
  match ← run kind bytes offset kind.maxLength {} with
  | .ok (word, consumed) =>
    let value ← narrow kind word
    return .ok (value, consumed)
  | .error fault => return .error fault

end WasmBinary.Varint.Checked
