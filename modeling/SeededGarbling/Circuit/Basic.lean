import Std.Data.ExtTreeMap

/-!
# Boolean circuits

A circuit lists its input wires, its gates in the order of evaluation, and its output wires. A gate
reads two wires, which may be one, and drives a third with the value that its truth table gives.
-/

namespace SeededGarbling

/-- Wires are numbered by 32-bit words. -/
abbrev Wire := UInt32

/-- A finite map from wires, listed in the order of their numbers. -/
abbrev WireMap (β : Type) := Std.ExtTreeMap Wire β

/-- The function of a gate: bit `2a + b` is its value at `(a, b)`. Four bits are used; the others
are carried along without meaning. -/
structure TruthTable where
  /-- The values, the one at `(0, 0)` in the lowest bit. -/
  bits : UInt8
  deriving DecidableEq, Repr

namespace TruthTable

/-- The table with the four low bits of a byte. -/
def ofBits (bits : UInt8) : TruthTable :=
  ⟨bits &&& 0x0f⟩

/-- The table with the given values at `(0,0)`, `(0,1)`, `(1,0)` and `(1,1)`. -/
def ofRows (r₀ r₁ r₂ r₃ : Bool) : TruthTable :=
  ⟨r₀.toUInt8 ||| r₁.toUInt8 <<< 1 ||| r₂.toUInt8 <<< 2 ||| r₃.toUInt8 <<< 3⟩

/-- Conjunction. -/
def and : TruthTable := ⟨0b1000⟩

/-- Exclusive disjunction. -/
def xor : TruthTable := ⟨0b0110⟩

/-- Disjunction. -/
def or : TruthTable := ⟨0b1110⟩

/-- Negated conjunction. -/
def nand : TruthTable := ⟨0b0111⟩

/-- Negated disjunction. -/
def nor : TruthTable := ⟨0b0001⟩

/-- Equivalence. -/
def xnor : TruthTable := ⟨0b1001⟩

/-- The value of the table at two bits. -/
def eval (table : TruthTable) (a b : Bool) : Bool :=
  (table.bits >>> (2 * a.toUInt8 + b.toUInt8)) &&& 1 == 1

/-- A table made from rows has those rows. -/
theorem eval_ofRows (r₀ r₁ r₂ r₃ a b : Bool) :
    (ofRows r₀ r₁ r₂ r₃).eval a b = bif a then bif b then r₃ else r₂ else bif b then r₁ else r₀ := by
  revert r₀ r₁ r₂ r₃ a b
  decide

end TruthTable

/-- A gate with two inputs. -/
structure Gate where
  /-- The wire of the first operand. -/
  left : Wire
  /-- The wire of the second operand. -/
  right : Wire
  /-- The wire that the gate drives. -/
  output : Wire
  /-- The function computed. -/
  table : TruthTable
  deriving DecidableEq, Repr

/-- A circuit, not necessarily a sensible one. -/
structure Circuit where
  /-- The gates, in the order of evaluation. -/
  gates : List Gate
  /-- The wires that hold the inputs. -/
  inputs : List Wire
  /-- The wires whose values are the result. -/
  outputs : List Wire
  deriving DecidableEq, Repr

/-- How many gates a circuit has. -/
def Circuit.gateCount (circuit : Circuit) : Nat :=
  circuit.gates.length

/-- Why a circuit, or what came with it, is refused. -/
inductive CircuitError where
  /-- A gate reads a wire that is neither an input nor driven before. -/
  | danglingWire (gate : Nat) (wire : Wire)
  /-- An input is listed twice. -/
  | inputRepeated (wire : Wire)
  /-- A gate drives an input or a wire that is driven before. -/
  | wireRedefined (gate : Nat) (wire : Wire)
  /-- An output is neither an input nor driven by a gate. -/
  | undefinedOutput (wire : Wire)
  /-- There is not one table per gate. -/
  | tableCountMismatch (expected actual : Nat)
  /-- The decoding table is not one for the outputs. -/
  | decodingMismatch
  /-- The input and output wires are not those garbled for. -/
  | wireListMismatch
  /-- The adder has more bits than are supported. -/
  | tooWide (bits maximum : Nat)
  deriving DecidableEq, Repr

/-- The wording of a refusal of a circuit. -/
def CircuitError.message : CircuitError → String
  | danglingWire gate wire => s!"gate {gate} reads undefined wire {wire.toNat}"
  | inputRepeated wire => s!"input wire {wire.toNat} is declared more than once"
  | wireRedefined gate wire => s!"gate {gate} redefines wire {wire.toNat}"
  | undefinedOutput wire => s!"output wire {wire.toNat} is not driven by any input or gate"
  | tableCountMismatch expected actual => s!"expected {expected} garbled tables, got {actual}"
  | decodingMismatch => "decoding table does not match the circuit output wires"
  | wireListMismatch => "circuit wires do not match the garbled container"
  | tooWide bits maximum => s!"{bits}-bit adder exceeds the maximum of {maximum} bits"

end SeededGarbling
