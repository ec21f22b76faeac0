import SeededGarbling.Garbling.Audit

/-!
# Garbled circuits

A garbled circuit belongs to the wires of the circuit that it was made for. It starts without
tables, and a successful garbling installs tables and decoding table together; it can also be put
together from parts received from someone else. Whoever holds one garbles into it in place.
-/

namespace SeededGarbling

/-- Tables and decoding table for one circuit. -/
structure GarbledCircuit where
  /-- The input wires of the circuit. -/
  inputs : List Wire
  /-- The output wires of the circuit. -/
  outputs : List Wire
  /-- One slot per gate. -/
  tables : TableSet
  /-- The permute bits of the outputs; empty until garbled. -/
  decoding : DecodingTable
  deriving DecidableEq

/-- What the garbler keeps about a garbled circuit. -/
structure CreationValues where
  /-- The labels of the inputs. -/
  inputLabels : WireMap WireLabels
  /-- The labels of the outputs. -/
  outputLabels : WireMap WireLabels
  /-- The decoding table that was installed. -/
  decoding : DecodingTable
  /-- The digest of the tables that were installed. -/
  digest : Bytes
  deriving DecidableEq

namespace GarbledCircuit

variable {γ : Type}

/-- A garbled circuit without tables. -/
def blank (circuit : Circuit) : GarbledCircuit where
  inputs := circuit.inputs
  outputs := circuit.outputs
  tables := .empty circuit.gateCount
  decoding := .empty

/-- A garbled circuit from given parts: one slot per gate, and one decoding entry per output. -/
def ofParts (circuit : Circuit) (tables : TableSet) (decoding : DecodingTable) :
    Except CircuitError GarbledCircuit :=
  if tables.size ≠ circuit.gateCount then
    .error (.tableCountMismatch circuit.gateCount tables.size)
  else if !decoding.coversExactly circuit.outputs then
    .error .decodingMismatch
  else
    .ok ⟨circuit.inputs, circuit.outputs, tables, decoding⟩

/-- Refuses a circuit that does not have the wires and the number of gates garbled for. -/
def checkShape (garbled : GarbledCircuit) (circuit : Circuit) : Except CircuitError Unit :=
  if circuit.gateCount ≠ garbled.tables.size then
    .error (.tableCountMismatch garbled.tables.size circuit.gateCount)
  else if circuit.inputs ≠ garbled.inputs ∨ circuit.outputs ≠ garbled.outputs then
    .error .wireListMismatch
  else
    .ok ()

/-- Garbles a circuit of the right shape into a garbled circuit. Tables and decoding table are
replaced together; after a failure the caller still holds the old ones. -/
def garble [Generator γ] (garbled : GarbledCircuit) (algorithm : PrfAlgorithm) (circuit : Circuit)
    (seed : Bytes) : Run γ (GarbledCircuit × CreationValues) := do
  Run.ofCircuit (garbled.checkShape circuit)
  let result ← Garbling.garble algorithm circuit seed
  let values : CreationValues :=
    ⟨result.inputLabels, result.outputLabels, result.decoding, result.digest⟩
  return ({ garbled with tables := result.tables, decoding := result.decoding }, values)

/-- Whether the tables held have the committed digest. -/
def checkTables (garbled : GarbledCircuit) (hasher : Hasher) (committed : Bytes) : Bool × Hasher :=
  Audit.checkTables hasher garbled.tables committed

/-- Whether every gate has a table and every output can be decoded. -/
def isGarbled (garbled : GarbledCircuit) : Bool :=
  garbled.tables.isComplete && garbled.decoding.coversExactly garbled.outputs

/-- Edits one table that is there. -/
def modifyTable (garbled : GarbledCircuit) (gate : Nat) (edit : Bytes → Bytes) : GarbledCircuit :=
  { garbled with tables := garbled.tables.modify gate edit }

end GarbledCircuit

/-- A garbled circuit, with the generator and the hasher that it is garbled with. -/
structure Bench (γ : Type) where
  /-- The garbled circuit. -/
  garbled : GarbledCircuit
  /-- Generator and hasher. -/
  workspace : Workspace γ

/-- A run beside the garbled circuit. -/
def Bench.onWorkspace {γ α : Type} (run : Run γ α) : ExceptT GarbleError (StateM (Bench γ)) α :=
  ExceptT.mk fun bench =>
    let (result, workspace) := run.run bench.workspace
    (result, { bench with workspace := workspace })

/-- Garbles into the garbled circuit that is held. Its tables and its decoding table are overwritten in
the end; a failure does not get there. -/
def garbleInPlace {γ : Type} [Generator γ] (algorithm : PrfAlgorithm) (circuit : Circuit)
    (seed : Bytes) : ExceptT GarbleError (StateM (Bench γ)) CreationValues := do
  let held := (← get).garbled
  let (garbled, values) ← Bench.onWorkspace (held.garble algorithm circuit seed)
  modify fun bench => { bench with garbled := garbled }
  return values

end SeededGarbling
