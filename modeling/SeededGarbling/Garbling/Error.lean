import SeededGarbling.Circuit.Basic
import SeededGarbling.Permutation.Buffer

/-!
# Why garbling stops
-/

namespace SeededGarbling

/-- What keeps garbling or an audit from giving an answer. -/
inductive GarbleError where
  /-- The circuit cannot be garbled, or not here. -/
  | circuit (cause : CircuitError)
  /-- The seed, a key or the generator is not usable. -/
  | key (cause : PrimitiveError)
  /-- The permutation behind the pads refused. -/
  | permutation (cause : PermutationError)
  deriving DecidableEq, Repr

namespace GarbleError

/-- The wording of a failure of garbling. -/
def message : GarbleError → String
  | circuit cause => s!"malformed circuit: {cause.message}"
  | key cause => s!"invalid key material: {cause.message}"
  | permutation cause => s!"gate permutation failed: {cause.message}"

/-- A refusal of the round function is one of key material; any other is one of the permutation. -/
def ofPermutation : PermutationError → GarbleError
  | .roundFunction cause => key cause
  | cause => permutation cause

end GarbleError

end SeededGarbling
