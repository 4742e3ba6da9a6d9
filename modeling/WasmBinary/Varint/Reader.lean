import WasmBinary.ModuleError
import WasmBinary.Varint.Basic

/-!
# Reading integers of variable length

A reader takes one group of seven bits after another and puts each above the ones before it.  A
kind of integer admits only so many groups; in the last of them some of the seven bits lie outside
the integer and must be zero, or copies of the sign.  What it reads need not be the shortest form.
-/

namespace WasmBinary.Varint

def continues (byte : UInt8) : Bool :=
  byte &&& 0x80 != 0

def group (byte : UInt8) : UInt8 :=
  byte &&& 0x7f

/-- Whether the bits above the low `spare` ones of a kind's last group leave the integer in range:
for an unsigned kind they are zero, for a signed one they agree with the sign below them. -/
def Kind.admits (kind : Kind) (spare : Nat) (byte : UInt8) : Bool :=
  if kind.isSigned then
    let mask : UInt8 := 0x7f &&& ~~~(((1 : UInt8) <<< UInt8.ofNat (spare - 1)) - 1)
    byte &&& mask == 0 || byte &&& mask == mask
  else
    group byte >>> UInt8.ofNat spare == 0

/-- A word whose low `filled` bits have been read, the last of them from `byte`, as the word that
the integer stands for: a signed integer repeats its sign above them. -/
def Kind.extend (kind : Kind) (filled : Nat) (byte : UInt8) (word : UInt64) : UInt64 :=
  if kind.isSigned ∧ filled < 64 ∧ byte &&& 0x40 ≠ 0 then
    word ||| ((0xffffffffffffffff : UInt64) <<< UInt64.ofNat filled)
  else
    word

/-- A reader between two groups. -/
structure Cursor where
  groups : Nat := 0
  /-- The groups taken, the first lowest. -/
  word : UInt64 := 0
deriving DecidableEq

namespace Cursor

def filled (cursor : Cursor) : Nat :=
  7 * cursor.groups

/-- Whether a kind admits just one more group. -/
def isLast (kind : Kind) (cursor : Cursor) : Bool :=
  cursor.groups == kind.maxLength - 1

inductive Step
  | more (cursor : Cursor)
  /-- The integer ends: its word, and the bytes it took. -/
  | done (word : UInt64) (consumed : Nat)
  | fault (fault : Fault)

def push (cursor : Cursor) (byte : UInt8) : Cursor where
  groups := cursor.groups + 1
  word := cursor.word ||| ((group byte).toUInt64 <<< UInt64.ofNat cursor.filled)

def step (kind : Kind) (cursor : Cursor) : Option UInt8 → Step
  | none => .fault .truncated
  | some byte =>
    if cursor.isLast kind && continues byte then .fault .overlong
    else if cursor.isLast kind && !kind.admits (kind.bits - cursor.filled) byte then
      .fault .overflow
    else
      let next := cursor.push byte
      if continues byte then .more next
      else .done (kind.extend next.filled byte next.word) next.groups

/-- Take bytes from `offset` on, at most `left` more. -/
def run (kind : Kind) (bytes : Bytes) (offset : Nat) :
    Nat → Cursor → Except Fault (UInt64 × Nat)
  | 0, _ => .error .overlong
  | left + 1, cursor =>
    match cursor.step kind bytes[offset + cursor.groups]? with
    | .more next => run kind bytes offset left next
    | .done word consumed => .ok (word, consumed)
    | .fault fault => .error fault

end Cursor

/-- The integer of a kind that starts at `offset`, and the number of bytes it takes. -/
def read (kind : Kind) (bytes : Bytes) (offset : Nat) : Except Fault (Varint × Nat) :=
  match Cursor.run kind bytes offset kind.maxLength {} with
  | .ok (word, consumed) => .ok (kind.ofWord word, consumed)
  | .error fault => .error fault

/-- As `read`, with a fault as a failure of the bytes at `offset`. -/
def readAt (kind : Kind) (bytes : Bytes) (offset : Nat) : Except ModuleError (Varint × Nat) :=
  (read kind bytes offset).mapError (.malformedVarint offset)

end WasmBinary.Varint
