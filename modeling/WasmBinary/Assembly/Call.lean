import WasmBinary.Assembly.Image

/-!
# Calls on an assembly

Every way to change an assembly, as data, so that one can speak of runs of calls.  A section that
is refused leaves the assembly as it was.
-/

namespace WasmBinary.Assembly

inductive Call
  | add (contents : Section)
  | clear
deriving DecidableEq

/-- What a call answers: nothing, or why it is refused. -/
abbrev Answer := Except ModuleError Unit

def apply (assembly : Assembly) : Call → Assembly × Answer
  | .add contents =>
    match assembly.add contents with
    | .ok next => (next, .ok ())
    | .error error => (assembly, .error error)
  | .clear => (assembly.clear, .ok ())

def run (assembly : Assembly) : List Call → Assembly × List Answer
  | [] => (assembly, [])
  | call :: calls =>
    let (next, answer) := assembly.apply call
    let (last, answers) := next.run calls
    (last, answer :: answers)

end WasmBinary.Assembly
