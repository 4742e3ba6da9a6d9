import WasmBinary.SectionKind
import WasmBinary.Type.Function

/-!
# Events

What happens to a module on its way into bytes can be followed in a log.  An event is one line of
it; the wording is here alone.
-/

namespace WasmBinary

inductive Level
  | debug
  | trace
deriving DecidableEq

def Level.name : Level → String
  | .debug => "DEBUG"
  | .trace => "TRACE"

inductive Event
  | sectionAdded (kind : SectionKind)
  | sectionSkipped (kind : SectionKind)
  | sectionEmitted (kind : SectionKind) (size : Nat)
  | moduleEncoded (size : Nat)
  | typeAssigned (signature : FuncType) (index : Nat)
  | functionDefined (index typeIndex : UInt32)
deriving DecidableEq

namespace Event

def level : Event → Level
  | .sectionEmitted _ _ | .moduleEncoded _ => .debug
  | .sectionAdded _ | .sectionSkipped _ | .typeAssigned _ _ | .functionDefined _ _ => .trace

def message : Event → String
  | .sectionAdded kind => "added " ++ kind.name ++ " section"
  | .sectionSkipped kind => "skipping empty " ++ kind.name ++ " section"
  | .sectionEmitted kind size =>
    "emitted " ++ kind.name ++ " section: " ++ toString size ++ " bytes"
  | .moduleEncoded size => "module encoded: " ++ toString size ++ " bytes"
  | .typeAssigned signature index =>
    "type " ++ signature.text ++ " assigned index " ++ toString index
  | .functionDefined index typeIndex =>
    "function " ++ toString index.toNat ++ " has type " ++ toString typeIndex.toNat

def line (event : Event) : String :=
  event.level.name ++ " " ++ event.message

end Event

end WasmBinary
