import SeededGarbling.Keystream.Generator

/-!
# Generators under observation

A recorded generator behaves as the one inside it and keeps the list of what it was asked for.
-/

namespace SeededGarbling

/-- What a generator was asked for. -/
inductive GeneratorCall where
  /-- To start the stream of a seed of the given length. -/
  | seed (length : Nat)
  /-- For the given number of bytes. -/
  | fill (length : Nat)
  deriving DecidableEq, Repr

/-- A generator together with all that it was asked for, failures included. -/
structure Recorded (γ : Type) where
  /-- The generator that answers. -/
  generator : γ
  /-- What it was asked for, in order. -/
  calls : Array GeneratorCall := #[]
  deriving DecidableEq, Repr

namespace Recorded

variable {γ α : Type}

/-- A step of the generator inside, noted down first. -/
def step (call : GeneratorCall) (inner : ExceptT PrimitiveError (StateM γ) α) :
    ExceptT PrimitiveError (StateM (Recorded γ)) α :=
  ExceptT.mk fun recorded =>
    let (result, generator) := inner.run recorded.generator
    (result, ⟨generator, recorded.calls.push call⟩)

instance [Generator γ] : Generator (Recorded γ) where
  seedLength recorded := Generator.seedLength recorded.generator
  seed bytes := step (.seed bytes.length) (Generator.seed bytes)
  fill n := step (.fill n) (Generator.fill n)

end Recorded

end SeededGarbling
