import SeededGarbling.Algorithm
import SeededGarbling.Keystream.Aes
import SeededGarbling.Keystream.Basic
import SeededGarbling.Keystream.ChaCha

/-!
# Generators

A generator is seeded, as often as its user likes, and then filled from. The two algorithms are
keystreams read from a moving position: a seed of the right length restarts the stream, any other
leaves the old one running, and nothing can be read before the first seed.
-/

namespace SeededGarbling

/-- What a generator with state `γ` can do. A failure keeps the state that the operation left. -/
class Generator (γ : Type) where
  /-- Bytes in a seed. -/
  seedLength : γ → Nat
  /-- Starts the stream of a seed. -/
  seed : Bytes → ExceptT PrimitiveError (StateM γ) Unit
  /-- The next `n` bytes of the stream. -/
  fill : (n : Nat) → ExceptT PrimitiveError (StateM γ) (Vector UInt8 n)

/-- Two kinds of generators make one: whichever there is answers. -/
instance {γ δ : Type} [Generator γ] [Generator δ] : Generator (γ ⊕ δ) where
  seedLength := Sum.elim Generator.seedLength Generator.seedLength
  seed bytes := ExceptT.mk fun
    | .inl generator => ((Generator.seed bytes).run generator).map id .inl
    | .inr generator => ((Generator.seed bytes).run generator).map id .inr
  fill n := ExceptT.mk fun
    | .inl generator => ((Generator.fill n).run generator).map id .inl
    | .inr generator => ((Generator.fill n).run generator).map id .inr

namespace PrgAlgorithm

/-- Bytes in a seed. -/
def seedLength : PrgAlgorithm → Nat
  | chacha20 => 32
  | aes128Ctr => 16

/-- Every read consumes a multiple of this many bytes. -/
def granularity : PrgAlgorithm → Nat
  | chacha20 => 4
  | aes128Ctr => 1

/-- The keystream of a ChaCha key: blocks of 64 bytes, counted from zero. -/
def chachaKeystream (doubleRoundCount : Nat) (key : Bytes) : Keystream :=
  let words := ChaCha.keyWords key
  { width := 64
    width_pos := Nat.succ_pos _
    block := fun i => ChaCha.squareBytes (ChaCha.block doubleRoundCount words i) }

/-- The keystream of an AES key: the encryptions of a 128-bit counter that starts at zero. -/
def aesKeystream (key : Bytes) : Keystream :=
  let keys := Aes.schedule (Vector.ofFn fun i => key.getD i 0)
  { width := 16
    width_pos := Nat.succ_pos _
    block := fun i => Aes.encrypt keys (Bytes.toVector (Bytes.bigEndian 16 i) (by simp)) }

/-- The keystream of a seed. -/
def keystream : PrgAlgorithm → Bytes → Keystream
  | chacha20, seed => chachaKeystream 10 seed
  | aes128Ctr, seed => aesKeystream seed

/-- How far a read of `n` bytes advances the stream. -/
def consumed (algorithm : PrgAlgorithm) (n : Nat) : Nat :=
  (n + algorithm.granularity - 1) / algorithm.granularity * algorithm.granularity

end PrgAlgorithm

/-- A running keystream. -/
structure StreamPosition where
  /-- The seed that the keystream belongs to. -/
  seed : Bytes
  /-- How many bytes of it are used up. -/
  position : Nat
  deriving DecidableEq, Repr

/-- A generator of one of the algorithms. -/
structure StreamGenerator where
  /-- The algorithm in use. -/
  algorithm : PrgAlgorithm
  /-- The keystream that is running, if there was a seed. -/
  stream : Option StreamPosition := none
  deriving DecidableEq, Repr

namespace StreamGenerator

/-- A generator that was never seeded. -/
def new (algorithm : PrgAlgorithm) : StreamGenerator where
  algorithm := algorithm

/-- Starts the keystream of a seed of the right length. -/
def restart (seed : Bytes) (generator : StreamGenerator) :
    Except PrimitiveError Unit × StreamGenerator :=
  if seed.length = generator.algorithm.seedLength then
    (.ok (), { generator with stream := some ⟨seed, 0⟩ })
  else
    (.error (.invalidKeyLength generator.algorithm.seedLength seed.length), generator)

/-- Reads on in the running keystream. -/
def read (n : Nat) (generator : StreamGenerator) :
    Except PrimitiveError (Vector UInt8 n) × StreamGenerator :=
  match generator.stream with
  | none => (.error .unseeded, generator)
  | some ⟨seed, position⟩ =>
    (.ok ((generator.algorithm.keystream seed).slice position n),
      { generator with stream := some ⟨seed, position + generator.algorithm.consumed n⟩ })

instance : Generator StreamGenerator where
  seedLength generator := generator.algorithm.seedLength
  seed bytes := ExceptT.mk (restart bytes)
  fill n := ExceptT.mk (read n)

end StreamGenerator

end SeededGarbling
