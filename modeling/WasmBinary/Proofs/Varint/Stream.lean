import WasmBinary.Proofs.Counted
import WasmBinary.Proofs.Varint.RoundTrip
import WasmBinary.Sink

/-!
# Streams of integers

Integers of any kinds can be written one behind the other.  A reader that is told the kinds, and
goes on each time by the number of bytes that the last one took, gets the integers back and ends
where they end, whatever stands in front of them and behind.
-/

namespace WasmBinary

/-- Write integers one behind the other. -/
def Sink.writeVarints (sink : Sink) : List Varint → Sink
  | [] => sink
  | value :: values => (sink.write value.encode).writeVarints values

namespace Varint

/-- Read integers of some kinds one after another, from `position` on: each with the number of bytes
that it takes, and the position behind the last. -/
def readAll (bytes : Bytes) (position : Nat) :
    List Kind → Except ModuleError (List (Varint × Nat) × Nat)
  | [] => .ok ([], position)
  | kind :: kinds => do
    let (value, consumed) ← readAt kind bytes position
    let (values, stop) ← readAll bytes (position + consumed) kinds
    return ((value, consumed) :: values, stop)

/-! ## Writing -/

theorem bytes_writeVarints (sink : Sink) (values : List Varint) :
    (sink.writeVarints values).bytes = sink.bytes ++ values.flatMap encode := by
  induction values generalizing sink with
  | nil => simp [Sink.writeVarints]
  | cons value values ih => simp [Sink.writeVarints, ih]

theorem size_writeVarints (sink : Sink) (values : List Varint) :
    (sink.writeVarints values).size = sink.size + (values.flatMap encode).length := by
  simp [Sink.size, bytes_writeVarints]

/-! ## Reading -/

theorem readAt_encode {value : Varint} {bytes rest : Bytes} {position : Nat}
    (hat : bytes.drop position = value.encode ++ rest) :
    readAt value.kind bytes position = .ok (value, value.encode.length) := by
  rw [readAt, read_encode hat]
  rfl

theorem readAll_cons {kind : Kind} {bytes : Bytes} {position consumed stop : Nat} {value : Varint}
    {kinds : List Kind} {values : List (Varint × Nat)}
    (hfirst : readAt kind bytes position = .ok (value, consumed))
    (hrest : readAll bytes (position + consumed) kinds = .ok (values, stop)) :
    readAll bytes position (kind :: kinds) = .ok ((value, consumed) :: values, stop) := by
  rw [readAll, bind_eq_ok_iff]
  exact ⟨_, hfirst, bind_eq_ok_iff.2 ⟨_, hrest, rfl⟩⟩

/-- What stands at a position is read back from there, up to where it ends. -/
theorem readAll_encode {values : List Varint} {bytes rest : Bytes} {position : Nat}
    (hat : bytes.drop position = values.flatMap encode ++ rest) :
    readAll bytes position (values.map kind) =
      .ok (values.map fun value ↦ (value, value.encode.length),
        position + (values.flatMap encode).length) := by
  induction values generalizing position with
  | nil => rfl
  | cons value values ih =>
    -- Behind the first integer the same holds of the others, at a later position.
    simp only [List.flatMap_cons, List.append_assoc] at hat
    have hbehind : bytes.drop (position + value.encode.length) =
        values.flatMap encode ++ rest := by
      rw [← List.drop_drop, hat, List.drop_left]
    have hall := readAll_cons (readAt_encode hat) (ih hbehind)
    simpa [Nat.add_assoc] using hall

/-- Integers that have been written to a sink are read back one after another, from where the sink
ended before and whatever is put behind them, up to where it ends afterwards.  Each takes the bytes
by which the sink grew for it, and what was in the sink before is as it was. -/
theorem readAll_writeVarints (sink : Sink) (values : List Varint) (after : Bytes) :
    sink.bytes <+: (sink.writeVarints values).bytes ∧
      readAll ((sink.writeVarints values).bytes ++ after) sink.size (values.map kind) =
        .ok (values.map fun value ↦ (value, value.encode.length),
          (sink.writeVarints values).size) ∧
      ∀ earlier value, (sink.writeVarints (earlier ++ [value])).size =
        (sink.writeVarints earlier).size + value.encode.length := by
  have hbytes := bytes_writeVarints sink values
  refine ⟨?_, ?_, ?_⟩
  · rw [hbytes]
    exact List.prefix_append _ _
  · rw [hbytes, size_writeVarints]
    apply readAll_encode
    rw [List.append_assoc, Sink.size, List.drop_left]
  · intro earlier value
    simp [size_writeVarints, Nat.add_assoc]

example : readAll (Sink.writeVarints ⟨[0xff]⟩ [.u64 300, .s32 (-1)]).bytes 1 [.u64, .s32] =
    .ok ([(.u64 300, 2), (.s32 (-1), 1)], 4) := by
  cbv

end Varint

end WasmBinary
