import SeededGarbling.Garbling.Error
import SeededGarbling.Hash.Hasher
import SeededGarbling.Keystream.Generator

/-!
# What runs share

Consecutive runs work with one generator and one hasher. A run may fail; the workspace it has
changed by then stays changed.
-/

namespace SeededGarbling

/-- One generator and one hasher. -/
structure Workspace (γ : Type) where
  /-- The generator that seeds are expanded with. -/
  generator : γ
  /-- The hasher that tables are committed with. -/
  hasher : Hasher

/-- A computation on a workspace that may stop with a cause. -/
abbrev Run (γ : Type) :=
  ExceptT GarbleError (StateM (Workspace γ))

namespace Run

variable {γ α : Type}

/-- A step of the generator. -/
def onGenerator (step : ExceptT PrimitiveError (StateM γ) α) : Run γ α :=
  ExceptT.mk fun workspace =>
    let (result, generator) := step.run workspace.generator
    (result.mapError .key, { workspace with generator := generator })

/-- A computation that does not touch the workspace. -/
def ofPrimitive (result : Except PrimitiveError α) : Run γ α :=
  MonadExcept.ofExcept (result.mapError .key)

/-- A check of a circuit. -/
def ofCircuit (result : Except CircuitError α) : Run γ α :=
  MonadExcept.ofExcept (result.mapError .circuit)

/-- Absorbs byte strings into the hasher. -/
def absorb (pieces : List Bytes) : Run γ Unit :=
  modify fun workspace => { workspace with hasher := workspace.hasher.updateAll pieces }

/-- Takes the digest of what was absorbed; the hasher is left with nothing. -/
def finalize : Run γ Bytes :=
  modifyGet fun workspace =>
    let (digest, hasher) := workspace.hasher.finalize
    (digest, { workspace with hasher := hasher })

end Run

end SeededGarbling
