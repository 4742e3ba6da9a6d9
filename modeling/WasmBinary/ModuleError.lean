import WasmBinary.ExternKind
import WasmBinary.SectionKind
import WasmBinary.Text.Quoted

/-!
# Failures

All that can go wrong between an integer's bytes and a whole module, each failure by its cause.
The wording is in `ModuleError.message` alone.
-/

namespace WasmBinary

inductive Varint.Fault
  | truncated
  | overlong
  /-- The last admissible group has bits outside the integer. -/
  | overflow
deriving DecidableEq

inductive Refusal
  /-- An import would shift the indices of the `defined` entities of its kind. -/
  | importAfterDefinition (kind : ExternKind) (defined : Nat)
  | duplicateExport (name : String)
  /-- A refusal in the caller's own words. -/
  | stated (text : String)
deriving DecidableEq

inductive ModuleError
  /-- The bytes that start at `offset` are no integer of the kind asked for. -/
  | malformedVarint (offset : Nat) (fault : Varint.Fault)
  | duplicateSection (kind : SectionKind)
  /-- A section was to come after `previous`, which belongs behind it. -/
  | invalidSectionOrder (previous kind : SectionKind)
  /-- A count or a length is too large for its 32 bits. -/
  | payloadTooLarge (length : Nat)
  | invalidState (refusal : Refusal)
deriving DecidableEq

def Varint.Fault.message : Varint.Fault → String
  | .truncated => "unexpected end"
  | .overlong => "integer representation too long"
  | .overflow => "integer too large"

def Refusal.message : Refusal → String
  | .importAfterDefinition kind defined =>
    "cannot import a " ++ kind.name ++ " after " ++ toString defined ++ " local " ++ kind.name ++
      "(s) were defined"
  | .duplicateExport name => "duplicate export name " ++ Text.quoted name
  | .stated text => text

def ModuleError.message : ModuleError → String
  | .malformedVarint offset fault =>
    "malformed varint at offset " ++ toString offset ++ ": " ++ fault.message
  | .duplicateSection kind => "duplicate " ++ kind.name ++ " section"
  | .invalidSectionOrder previous kind =>
    kind.name ++ " section cannot follow " ++ previous.name ++ " section"
  | .payloadTooLarge length =>
    "length " ++ toString length ++ " does not fit a u32 length prefix"
  | .invalidState refusal => "invalid state: " ++ refusal.message

end WasmBinary
