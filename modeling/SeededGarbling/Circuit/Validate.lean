import SeededGarbling.Circuit.Basic
import Std.Data.HashSet

/-!
# Well-formed circuits

One walk over the inputs, the gates and the outputs keeps the set of wires that hold a value so far.
It stops at the first wire that is read too early, driven twice or never driven.
-/

namespace SeededGarbling

/-- The wires that hold a value. -/
abbrev DefinedWires := Std.HashSet Wire

namespace DefinedWires

/-- Adds an input; no input is listed twice. -/
def declareInput (defined : DefinedWires) (wire : Wire) : Except CircuitError DefinedWires :=
  if defined.contains wire then
    .error (.inputRepeated wire)
  else
    .ok (defined.insert wire)

/-- Adds the output of a gate; its operands come before it, and it drives a new wire. -/
def declareGate (defined : DefinedWires) (indexed : Gate × Nat) : Except CircuitError DefinedWires :=
  let (gate, index) := indexed
  if !defined.contains gate.left then
    .error (.danglingWire index gate.left)
  else if !defined.contains gate.right then
    .error (.danglingWire index gate.right)
  else if defined.contains gate.output then
    .error (.wireRedefined index gate.output)
  else
    .ok (defined.insert gate.output)

end DefinedWires

/-- Accepts exactly the circuits that can be evaluated gate by gate, and names the first wire that
stands in the way of any other. -/
def Circuit.validate (circuit : Circuit) : Except CircuitError Unit := do
  let defined ← circuit.inputs.foldlM DefinedWires.declareInput ∅
  let defined ← circuit.gates.zipIdx.foldlM DefinedWires.declareGate defined
  match circuit.outputs.find? fun wire => !defined.contains wire with
  | some wire => .error (.undefinedOutput wire)
  | none => .ok ()

end SeededGarbling
