import SeededGarbling.Circuit.Evaluate
import SeededGarbling.Proofs.Cipher

/-!
# Evaluation of garbled circuits

An evaluator holds one token for each wire that it has reached: a label and a signal byte. The
signals of the operands choose a row of a gate's table, the labels open it, and what is found there
is the token of the wire that the gate drives. The evaluation stops where a token, a table, a row or
a pad is missing.
-/

namespace SeededGarbling

open Traversal

/-- What an evaluator holds for a wire. -/
structure Token where
  /-- The label that stands for the value of the wire. -/
  label : Label
  /-- The signal that goes with the label, as it was found in a row. -/
  signal : UInt8
  deriving DecidableEq

/-- The token that stands for a value. -/
def WireLabels.token (labels : WireLabels) (value : Bool) : Token :=
  ⟨labels.label value, (labels.signal value).toUInt8⟩

/-- A row of the table of a gate, if there is a table and it reaches that far. -/
def TableSet.row? (tables : TableSet) (gate row : Nat) : Option (Vector UInt8 17) := do
  let table ← tables.get? gate
  let bytes := (table.drop (row * rowLength)).take rowLength
  if h : bytes.length = 17 then return Bytes.toVector bytes h else none

namespace GateCipher

/-- Opens the row that the signals of the operands point to, and holds its content for the wire
that the gate drives. -/
def openGate (cipher : GateCipher) (tables : TableSet) (held : WireMap Token)
    (indexed : Gate × Nat) : Option (WireMap Token) := do
  let (gate, index) := indexed
  let a ← held[gate.left]?
  let b ← held[gate.right]?
  let row := 2 * a.signal.toNat + b.signal.toNat
  let sealedRow ← tables.row? index row
  let opened ← (cipher.openRow index row a.label b.label sealedRow).toOption
  have hsignal : 16 < 17 := Nat.lt_succ_self 16
  return held.insert gate.output ⟨opened.take 16, opened[16]⟩

/-- Opens gate after gate. -/
def openGates (cipher : GateCipher) (circuit : Circuit) (tables : TableSet)
    (held : WireMap Token) : Option (WireMap Token) :=
  circuit.gates.zipIdx.foldlM (cipher.openGate tables) held

end GateCipher

/-- The tokens of the inputs under an assignment, if all of them have labels. -/
def presentInputs (labels : WireMap WireLabels) (inputs : List Wire) (values : Wire → Bool) :
    Option (WireMap Token) := do
  let entries ← inputs.mapM fun wire => do
    let wireLabels ← labels[wire]?
    return (wire, wireLabels.token (values wire))
  return .ofList entries

/-- The values of the inputs under an assignment. -/
def Circuit.assign (circuit : Circuit) (values : Wire → Bool) : WireMap Bool :=
  .ofList (circuit.inputs.map fun wire => (wire, values wire))

end SeededGarbling
