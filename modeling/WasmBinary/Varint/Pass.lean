import WasmBinary.Sink

/-!
# Writing and counting in passes over words

Integers are written and their bytes are counted in loops over words of 64 bits.  Each pass looks at
the low seven bits of the word and at the word shifted by seven, to the end of which a signed word
repeats its sign.  A pass decides by these whether it is the last: the writers and the counters each
in their own way.  Nothing in a loop bounds its passes, so here it is a relation when it ends.
-/

namespace WasmBinary

/-- What one pass of a loop comes to. -/
inductive Pass (σ ρ : Type)
  | again (state : σ)
  | leave (result : ρ)

/-- From a state on, the loop leaves with a result in its last of so many passes. -/
inductive Pass.Ends {σ ρ : Type} (body : σ → Pass σ ρ) : σ → Nat → ρ → Prop
  | leave {state : σ} {result : ρ} (h : body state = .leave result) : Ends body state 1 result
  | again {state next : σ} {passes : Nat} {result : ρ} (h : body state = .again next)
    (hnext : Ends body next passes result) : Ends body state (passes + 1) result

namespace Varint

/-! ## Writing -/

def unsignedPass : UInt64 × Sink → Pass (UInt64 × Sink) Sink
  | (word, sink) =>
    let byte := (word &&& 0x7f).toUInt8
    let rest := word >>> 7
    if rest = 0 then .leave (sink.write [byte])
    else .again (rest, sink.write [byte ||| 0x80])

def signedPass : Int64 × Sink → Pass (Int64 × Sink) Sink
  | (word, sink) =>
    let byte := (word &&& 0x7f).toUInt64.toUInt8
    let rest := word >>> 7
    if (rest = 0 ∧ byte &&& 0x40 = 0) ∨ (rest = -1 ∧ byte &&& 0x40 ≠ 0) then
      .leave (sink.write [byte])
    else .again (rest, sink.write [byte ||| 0x80])

/-- The integer is written to the sink, pass by pass. -/
def WrittenIn (value : Varint) (sink : Sink) (passes : Nat) (after : Sink) : Prop :=
  match value with
  | .u32 value => Pass.Ends unsignedPass (value.toUInt64, sink) passes after
  | .u64 value => Pass.Ends unsignedPass (value, sink) passes after
  | .s32 value => Pass.Ends signedPass (value.toInt64, sink) passes after
  | .s64 value => Pass.Ends signedPass (value, sink) passes after

/-! ## Counting -/

def unsignedCountPass : UInt64 × Nat → Pass (UInt64 × Nat) Nat
  | (word, count) => if 0x80 ≤ word then .again (word >>> 7, count + 1) else .leave count

def signedCountPass : Int64 × Nat → Pass (Int64 × Nat) Nat
  | (word, count) =>
    let low := word &&& 0x7f
    let rest := word >>> 7
    if (rest = 0 ∧ low &&& 0x40 = 0) ∨ (rest = -1 ∧ low &&& 0x40 ≠ 0) then .leave count
    else .again (rest, count + 1)

/-- The bytes of the integer are counted, pass by pass. -/
def CountedIn (value : Varint) (passes : Nat) (count : Nat) : Prop :=
  match value with
  | .u32 value => Pass.Ends unsignedCountPass (value.toUInt64, 1) passes count
  | .u64 value => Pass.Ends unsignedCountPass (value, 1) passes count
  | .s32 value => Pass.Ends signedCountPass (value.toInt64, 1) passes count
  | .s64 value => Pass.Ends signedCountPass (value, 1) passes count

end Varint

end WasmBinary
