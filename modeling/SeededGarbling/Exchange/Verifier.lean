import SeededGarbling.Exchange.Opening
import SeededGarbling.Garbling.Config
import SeededGarbling.Random.Sample

/-!
# The verifier's side

The verifier picks the instances to check, garbles them again from the revealed seeds, and compares
every digest with its commitment. The commitment covers tables alone, so the decoding table of a
circuit that is handed over is checked for its wires but not for its bits.
-/

namespace SeededGarbling

/-- The verifying party. -/
structure Verifier where
  /-- The algorithms agreed on. -/
  config : GarblingConfig
  /-- The circuit agreed on. -/
  circuit : Circuit

namespace Verifier

/-- The steps of an audit share one generator and one hasher. -/
abbrev AuditStep :=
  ExceptT ExchangeError (StateM (Workspace StreamGenerator))

/-- Picks `count` of `bound` instances at random, in order. -/
def choose {ρ : Type} [RandomSource ρ] (bound count : Nat) :
    ExceptT ExchangeError (StateM ρ) (List Nat) :=
  if count > bound then
    throw (.tooManyChecks count bound)
  else do
    let drawn ← (Sample.indices bound count : StateM ρ _)
    return drawn.mergeSort

/-- Checks a revealed seed: its length, and the digest of the tables garbled from it. -/
def auditSeed (verifier : Verifier) (commitments : List Bytes) (revealed : Nat × Bytes) :
    AuditStep Unit := do
  let (index, seed) := revealed
  if seed.length ≠ verifier.config.seedLength then
    throw (.cheatAttempt index)
  let committed := commitments.getD index []
  let accepted ← ExceptT.adapt ExchangeError.garble
    (Audit.checkSeed verifier.config.prf verifier.circuit seed committed)
  if !accepted then
    throw (.cheatAttempt index)

/-- Checks the tables held by a garbled circuit against a commitment. -/
def auditTables (garbled : GarbledCircuit) (committed : Bytes) : AuditStep Bool :=
  modifyGet fun workspace =>
    let (accepted, hasher) := garbled.checkTables workspace.hasher committed
    (accepted, { workspace with hasher := hasher })

/-- Checks a garbled circuit that is handed over: its shape, and the digest of its tables. -/
def auditEvaluated (verifier : Verifier) (commitments : List Bytes)
    (revealed : Nat × GarbledCircuit) : AuditStep Unit := do
  let (index, garbled) := revealed
  let fits := garbled.tables.size = verifier.circuit.gateCount ∧
    garbled.inputs = verifier.circuit.inputs ∧ garbled.outputs = verifier.circuit.outputs ∧
    garbled.isGarbled = true
  if ¬fits then
    throw (.cheatAttempt index)
  let accepted ← auditTables garbled (commitments.getD index [])
  if !accepted then
    throw (.cheatAttempt index)

/-- Audits an opening against the commitments: first how it fits the check list, then the seeds and
the garbled circuits, both in the order of the instances. Yields the garbled circuits handed over. -/
def audit (verifier : Verifier) (commitments : List Bytes) (checks : List Nat) (opening : Opening) :
    Except ExchangeError (InstanceMap GarbledCircuit) := do
  let set ← checkSet checks commitments.length
  opening.checkShape set commitments.length
  let steps : AuditStep Unit := do
    opening.seeds.toList.forM (verifier.auditSeed commitments)
    opening.evaluated.toList.forM (verifier.auditEvaluated commitments)
  let _ ← (steps.run verifier.config.workspace).1
  return opening.evaluated

end Verifier

end SeededGarbling
