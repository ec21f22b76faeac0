import SeededGarbling.Circuit.Basic

/-!
# Plain evaluation

Each gate in turn reads its operands and stores its value. A missing operand stops the evaluation.
-/

namespace SeededGarbling

/-- Stores the value of a gate, if both operands are there. -/
def Gate.evaluate (values : WireMap Bool) (gate : Gate) : Option (WireMap Bool) := do
  let a ← values[gate.left]?
  let b ← values[gate.right]?
  return values.insert gate.output (gate.table.eval a b)

/-- The values of all wires, from those of the inputs. -/
def Circuit.evaluate (circuit : Circuit) (inputs : WireMap Bool) : Option (WireMap Bool) :=
  circuit.gates.foldlM Gate.evaluate inputs

end SeededGarbling
