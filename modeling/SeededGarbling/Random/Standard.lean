import SeededGarbling.Keystream.Generator
import SeededGarbling.Random.Source

/-!
# The standard source

Twelve-round ChaCha, read word by word. Its key can be spread from a single 64-bit number by a
congruential sequence whose values are scrambled before use.
-/

namespace SeededGarbling

/-- A position in the twelve-round keystream of a key. -/
structure StandardSource where
  /-- The 32 bytes of the key. -/
  key : Bytes
  /-- How many bytes were drawn; a multiple of four. -/
  position : Nat := 0
  deriving DecidableEq, Repr

namespace StandardSource

/-- One step of the congruential sequence. -/
def advance (state : UInt64) : UInt64 :=
  state * 6364136223846793005 + 11634580027462260723

/-- The word that a member of the sequence is scrambled to. -/
def scramble (state : UInt64) : UInt32 :=
  let folded := (((state >>> 18) ^^^ state) >>> 27).toUInt32
  let amount := (state >>> 59).toUInt32
  folded >>> amount ||| folded <<< ((32 - amount) % 32)

/-- The bytes of `count` scrambled words. -/
def spread : (count : Nat) → UInt64 → Bytes
  | 0, _ => []
  | count + 1, state =>
    let next := advance state
    Bytes.littleEndian 4 (scramble next).toNat ++ spread count next

/-- The source whose key is spread from a 64-bit number. -/
def ofSeed (seed : UInt64) : StandardSource where
  key := spread 8 seed

/-- The words of the whole keystream: sixteen for each of the blocks that are counted. -/
def keystreamWords : Nat :=
  16 * UInt64.size

/-- The next `n` bytes; what is left of the last word is dropped. -/
def draw (n : Nat) (source : StandardSource) : Vector UInt8 n × StandardSource :=
  let next := (PrgAlgorithm.chachaKeystream 6 source.key).slice source.position n
  (next, { source with position := source.position + (n + 3) / 4 * 4 })

instance : RandomSource StandardSource where
  word32 := do return Bytes.toNat (← draw 4).toList
  word64 := do return Bytes.toNat (← draw 8).toList
  bytes n := draw n
  cycle _ := keystreamWords

end StandardSource

end SeededGarbling
