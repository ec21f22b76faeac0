import SeededGarbling.Circuit.Validate
import SeededGarbling.Garbling.DecodingTable
import SeededGarbling.Garbling.GateCipher
import SeededGarbling.Garbling.TableSet
import SeededGarbling.Garbling.Workspace

/-!
# Garbling from a seed

All randomness of a run comes from one seed: it keys the function that labels are derived with, so
whoever holds the seed garbles the same circuit into the same tables. A run either keeps the tables
or only their digest; both commit to the same bytes.
-/

namespace SeededGarbling

/-- What a run of garbling yields. -/
structure Garbling where
  /-- One table per gate. -/
  tables : TableSet
  /-- The permute bits of the outputs. -/
  decoding : DecodingTable
  /-- The labels of the inputs. -/
  inputLabels : WireMap WireLabels
  /-- The labels of the outputs. -/
  outputLabels : WireMap WireLabels
  /-- The digest of the tables, in gate order, behind what the hasher held before. -/
  digest : Bytes
  deriving DecidableEq

/-- How many gates are garbled at a time when only the digest is kept. -/
def batchSize : Nat := 4096

namespace Garbling

variable {γ : Type}

/-- The cipher of a seed: the generator is seeded and yields the key that labels are derived with. -/
def cipherOfSeed [Generator γ] (algorithm : PrfAlgorithm) (seed : Bytes) : Run γ GateCipher := do
  Run.onGenerator (Generator.seed seed)
  let key ← Run.onGenerator (Generator.fill algorithm.keyLength)
  let labels ← Run.ofPrimitive (algorithm.keyed key.toList)
  let pads ← Run.ofPrimitive (algorithm.keyed publicKey)
  return ⟨labels, pads⟩

/-- Garbles a circuit. The circuit is checked before the generator is touched, and the hasher is
touched only when nothing can fail any more. -/
def garble [Generator γ] (algorithm : PrfAlgorithm) (circuit : Circuit) (seed : Bytes) :
    Run γ Garbling := do
  Run.ofCircuit circuit.validate
  let cipher ← cipherOfSeed algorithm seed
  let tables ← MonadExcept.ofExcept (circuit.gates.zipIdx.mapM cipher.garbleGate)
  let inputLabels ← Run.ofPrimitive (cipher.labelsOf circuit.inputs)
  let outputLabels ← Run.ofPrimitive (cipher.labelsOf circuit.outputs)
  Run.absorb tables
  let digest ← Run.finalize
  return {
    tables := .ofTables tables
    decoding := ⟨outputLabels.map fun _ labels => labels.permute⟩
    inputLabels := inputLabels
    outputLabels := outputLabels
    digest := digest }

/-- Garbles `count` batches of gates, numbered from `base` on, and absorbs their tables. If a gate
cannot be garbled, what was absorbed is dropped. -/
def absorbBatches (cipher : GateCipher) : (count base : Nat) → List Gate → Run γ Unit
  | 0, _, _ => return
  | count + 1, base, gates => do
    match ((gates.take batchSize).zipIdx base).mapM cipher.garbleGate with
    | .ok tables =>
      Run.absorb tables
      absorbBatches cipher count (base + batchSize) (gates.drop batchSize)
    | .error cause =>
      let _ ← Run.finalize
      throw cause

/-- Garbles a circuit for the digest alone, a batch of gates at a time. -/
def digestOnly [Generator γ] (algorithm : PrfAlgorithm) (circuit : Circuit) (seed : Bytes) :
    Run γ Bytes := do
  Run.ofCircuit circuit.validate
  let cipher ← cipherOfSeed algorithm seed
  absorbBatches cipher ((circuit.gateCount + batchSize - 1) / batchSize) 0 circuit.gates
  Run.finalize

end Garbling

end SeededGarbling
