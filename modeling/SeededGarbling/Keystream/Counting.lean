import SeededGarbling.Keystream.Generator

/-!
# The counting generator

A stand-in for a real generator: its output shows the seed and the position, and it can be made to
fail.
-/

namespace SeededGarbling

/-- A generator whose output is its seed, over and over, with the position added to each byte. -/
structure CountingGenerator where
  /-- Bytes in a seed. -/
  seedLength : Nat
  /-- Whether every read fails. -/
  isDry : Bool := false
  /-- The seed and how many bytes were read since. -/
  stream : Option StreamPosition := none
  deriving DecidableEq, Repr

namespace CountingGenerator

/-- Starts over with a seed of the right length. -/
def restart (seed : Bytes) (generator : CountingGenerator) :
    Except PrimitiveError Unit × CountingGenerator :=
  if seed.length = generator.seedLength then
    (.ok (), { generator with stream := some ⟨seed, 0⟩ })
  else
    (.error (.invalidKeyLength generator.seedLength seed.length), generator)

/-- Reads on. -/
def read (n : Nat) (generator : CountingGenerator) :
    Except PrimitiveError (Vector UInt8 n) × CountingGenerator :=
  match generator.stream, generator.isDry with
  | some ⟨seed, position⟩, false =>
    let period := seed.toArray
    let byteAt := fun i => period.getD (i % period.size) 0 + UInt8.ofNat i
    (.ok (Vector.ofFn fun i : Fin n => byteAt (position + i)),
      { generator with stream := some ⟨seed, position + n⟩ })
  | _, _ => (.error .unseeded, generator)

instance : Generator CountingGenerator where
  seedLength generator := generator.seedLength
  seed bytes := ExceptT.mk (restart bytes)
  fill n := ExceptT.mk (read n)

end CountingGenerator

end SeededGarbling
