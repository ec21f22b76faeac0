import SeededGarbling.Hash.Blake3
import SeededGarbling.KeyDerivation

/-!
# Keyed functions

A round function answers an input and an output length with that many bytes, possibly with effects
and possibly not at all. A keyed function is one without effects; the two algorithms make one from
a 32-byte key.
-/

namespace SeededGarbling

/-- A function of an input and an output length that may fail. -/
abbrev RoundFunction (m : Type → Type) :=
  Bytes → (n : Nat) → ExceptT PrimitiveError m (Vector UInt8 n)

/-- A round function without effects. -/
abbrev KeyedFunction :=
  Bytes → (n : Nat) → Except PrimitiveError (Vector UInt8 n)

namespace PrfAlgorithm

/-- Bytes in a key, whatever the algorithm. -/
def keyLength (_algorithm : PrfAlgorithm) : Nat := 32

/-- Keyed BLAKE3 answers any output length. -/
def blake3Keyed (key : Bytes) : KeyedFunction :=
  let words := Blake3.keyWords key
  fun input n => .ok (Bytes.toVector (Blake3.keyedOutput words input n) (by simp))

/-- HKDF expansion, with the input as its context, answers up to 255 blocks. -/
def hmacSha256Keyed (key : Bytes) : KeyedFunction := fun input n =>
  if n > Hkdf.maximumLength then
    .error (.outputTooLong n Hkdf.maximumLength)
  else
    .ok (Bytes.toVector (Hkdf.output key input n) (by simp))

/-- The keyed function of an algorithm under a key; only the length of the key is checked. -/
def keyed (algorithm : PrfAlgorithm) (key : Bytes) : Except PrimitiveError KeyedFunction :=
  if key.length = algorithm.keyLength then
    match algorithm with
    | blake3 => .ok (blake3Keyed key)
    | hmacSha256 => .ok (hmacSha256Keyed key)
  else
    .error (.invalidKeyLength algorithm.keyLength key.length)

end PrfAlgorithm

end SeededGarbling
