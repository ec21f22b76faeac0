import SeededGarbling.Bytes

/-!
# Sources of randomness

A source yields words and byte strings and moves on. A cyclic source repeats given bytes, which
makes every draw predictable.
-/

namespace SeededGarbling

/-- What a source of randomness with state `ρ` can be asked for. -/
class RandomSource (ρ : Type) where
  /-- A number below `2 ^ 32`. -/
  word32 : StateM ρ Nat
  /-- A number below `2 ^ 64`. -/
  word64 : StateM ρ Nat
  /-- The given number of bytes. -/
  bytes : (n : Nat) → StateM ρ (Vector UInt8 n)
  /-- A number of words behind which the source is back where it was, at the latest. -/
  cycle : ρ → Nat

/-- A source that repeats its bytes; without any, it yields zeros. -/
structure CyclicSource where
  /-- The bytes to repeat. -/
  period : Array UInt8
  /-- How many bytes were drawn. -/
  position : Nat := 0
  deriving DecidableEq, Repr

namespace CyclicSource

/-- The next `n` bytes. -/
def draw (n : Nat) (source : CyclicSource) : Vector UInt8 n × CyclicSource :=
  let period := source.period
  let next := Vector.ofFn fun i : Fin n => period.getD ((source.position + i) % period.size) 0
  (next, { source with position := source.position + n })

instance : RandomSource CyclicSource where
  word32 := do return Bytes.toNat (← draw 4).toList
  word64 := do return Bytes.toNat (← draw 8).toList
  bytes n := draw n
  cycle source := max 1 source.period.size

end CyclicSource

/-- Two kinds of sources make one: whichever there is answers. -/
instance {ρ τ : Type} [RandomSource ρ] [RandomSource τ] : RandomSource (ρ ⊕ τ) where
  word32
    | .inl source => (RandomSource.word32.run source).map id .inl
    | .inr source => (RandomSource.word32.run source).map id .inr
  word64
    | .inl source => (RandomSource.word64.run source).map id .inl
    | .inr source => (RandomSource.word64.run source).map id .inr
  bytes n
    | .inl source => ((RandomSource.bytes n).run source).map id .inl
    | .inr source => ((RandomSource.bytes n).run source).map id .inr
  cycle
    | .inl source => RandomSource.cycle source
    | .inr source => RandomSource.cycle source

end SeededGarbling
