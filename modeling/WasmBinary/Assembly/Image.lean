import WasmBinary.Assembly.Basic
import WasmBinary.Preamble

/-!
# Modules as bytes

The image of an assembly is the preamble and a frame for each section in the order of writing: the
byte of its kind, the length of its payload, the payload.  A section without a payload has no frame.
The image and the log of making it are two views of one pass over the sections.
-/

namespace WasmBinary

inductive Emission
  | skipped (kind : SectionKind)
  /-- A section with its frame; `size` is the length of the payload alone. -/
  | framed (kind : SectionKind) (size : Nat) (frame : Bytes)
deriving DecidableEq

namespace Emission

/-- The bytes that the image holds of a section. -/
def bytes : Emission → Bytes
  | .skipped _ => []
  | .framed _ _ frame => frame

def event : Emission → Event
  | .skipped kind => .sectionSkipped kind
  | .framed kind size _ => .sectionEmitted kind size

end Emission

def Section.emission (contents : Section) : Except ModuleError Emission := do
  let payload ← contents.render
  if payload.isEmpty then
    return .skipped contents.kind
  else
    let prefixed ← lengthPrefixed payload
    return .framed contents.kind payload.length (contents.kind.byte :: prefixed)

/-- The emissions up to the first section that cannot be written, and what was wrong with it. -/
def emissions : List Section → List Emission × Option ModuleError
  | [] => ([], none)
  | first :: rest =>
    match first.emission with
    | .error error => ([], some error)
    | .ok emission =>
      let (later, error?) := emissions rest
      (emission :: later, error?)

namespace Assembly

def image (assembly : Assembly) : Except ModuleError Bytes :=
  match emissions assembly.ordered with
  | (written, none) => .ok (preamble ++ written.flatMap Emission.bytes)
  | (_, some error) => .error error

def imageLog (assembly : Assembly) : List Event :=
  (emissions assembly.ordered).1.map Emission.event ++
    match assembly.image with
    | .ok bytes => [.moduleEncoded bytes.length]
    | .error _ => []

end Assembly

end WasmBinary
