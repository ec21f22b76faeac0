import SeededGarbling.Exchange.Opening
import SeededGarbling.Garbling.Config
import SeededGarbling.Random.Source

/-!
# The garbler's side

The garbler garbles one circuit from several fresh seeds and commits to the digests. The instances
share one generator and one hasher, which every run leaves fit for the next.
-/

namespace SeededGarbling

/-- One garbling that was committed to. -/
structure Instance where
  /-- The seed it was garbled from. -/
  seed : Bytes
  /-- The garbled circuit. -/
  garbled : GarbledCircuit
  /-- What the garbler keeps about it. -/
  values : CreationValues
  deriving DecidableEq

/-- The garbling party. -/
structure Garbler where
  /-- The algorithms agreed on. -/
  config : GarblingConfig
  /-- The circuit agreed on. -/
  circuit : Circuit
  /-- The instances committed to. -/
  instances : List Instance := []

namespace Garbler

variable {ρ : Type} [RandomSource ρ]

/-- Garbles `count` instances one after the other, each from a fresh seed. -/
def drawInstances (config : GarblingConfig) (circuit : Circuit) :
    (count : Nat) → Workspace StreamGenerator → ExceptT ExchangeError (StateM ρ) (List Instance)
  | 0, _ => return []
  | count + 1, workspace => do
    let seed := (← (RandomSource.bytes config.seedLength : StateM ρ _)).toList
    let run := (GarbledCircuit.blank circuit).garble config.prf circuit seed
    match run.run workspace with
    | (.error cause, _) => throw (.garble cause)
    | (.ok (garbled, values), workspace) =>
      return ⟨seed, garbled, values⟩ :: (← drawInstances config circuit count workspace)

/-- Commits to `count` new instances in place of the old ones. -/
def commit (garbler : Garbler) (count : Nat) : ExceptT ExchangeError (StateM ρ) Garbler := do
  let instances ← drawInstances garbler.config garbler.circuit count garbler.config.workspace
  return { garbler with instances := instances }

/-- The digests of the instances. -/
def commitments (garbler : Garbler) : List Bytes :=
  garbler.instances.map fun member => member.values.digest

/-- What is kept about an instance. -/
def creationValues? (garbler : Garbler) (index : Nat) : Option CreationValues :=
  garbler.instances[index]?.map Instance.values

/-- Reveals the seed of every instance of the check list and the garbled circuit of every other. -/
def openInstances (garbler : Garbler) (checks : List Nat) : Except ExchangeError Opening := do
  let set ← checkSet checks garbler.instances.length
  let (checked, others) := garbler.instances.zipIdx.partition fun (_, index) => set.contains index
  return {
    seeds := .ofList (checked.map fun (member, index) => (index, member.seed))
    evaluated := .ofList (others.map fun (member, index) => (index, member.garbled)) }

end Garbler

end SeededGarbling
