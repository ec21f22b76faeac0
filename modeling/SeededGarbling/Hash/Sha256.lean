import SeededGarbling.Bytes

/-!
# SHA-256

A message is padded to whole 64-byte blocks, each block is expanded to 64 schedule words, and
the words are folded into eight chaining words.
-/

namespace SeededGarbling.Sha256

/-- The eight words carried from block to block. -/
structure Chain where
  /-- First word. -/
  a : UInt32
  /-- Second word. -/
  b : UInt32
  /-- Third word. -/
  c : UInt32
  /-- Fourth word. -/
  d : UInt32
  /-- Fifth word. -/
  e : UInt32
  /-- Sixth word. -/
  f : UInt32
  /-- Seventh word. -/
  g : UInt32
  /-- Eighth word. -/
  h : UInt32
  deriving DecidableEq

/-- The chain before the first block: fractional bits of the square roots of the first eight
primes. -/
def initialChain : Chain :=
  ⟨0x6a09e667, 0xbb67ae85, 0x3c6ef372, 0xa54ff53a, 0x510e527f, 0x9b05688c, 0x1f83d9ab, 0x5be0cd19⟩

/-- One constant per round: fractional bits of the cube roots of the first 64 primes. -/
def roundConstants : Vector UInt32 64 :=
  #v[
    0x428a2f98, 0x71374491, 0xb5c0fbcf, 0xe9b5dba5,
    0x3956c25b, 0x59f111f1, 0x923f82a4, 0xab1c5ed5,
    0xd807aa98, 0x12835b01, 0x243185be, 0x550c7dc3,
    0x72be5d74, 0x80deb1fe, 0x9bdc06a7, 0xc19bf174,
    0xe49b69c1, 0xefbe4786, 0x0fc19dc6, 0x240ca1cc,
    0x2de92c6f, 0x4a7484aa, 0x5cb0a9dc, 0x76f988da,
    0x983e5152, 0xa831c66d, 0xb00327c8, 0xbf597fc7,
    0xc6e00bf3, 0xd5a79147, 0x06ca6351, 0x14292967,
    0x27b70a85, 0x2e1b2138, 0x4d2c6dfc, 0x53380d13,
    0x650a7354, 0x766a0abb, 0x81c2c92e, 0x92722c85,
    0xa2bfe8a1, 0xa81a664b, 0xc24b8b70, 0xc76c51a3,
    0xd192e819, 0xd6990624, 0xf40e3585, 0x106aa070,
    0x19a4c116, 0x1e376c08, 0x2748774c, 0x34b0bcb5,
    0x391c0cb3, 0x4ed8aa4a, 0x5b9cca4f, 0x682e6ff3,
    0x748f82ee, 0x78a5636f, 0x84c87814, 0x8cc70208,
    0x90befffa, 0xa4506ceb, 0xbef9a3f7, 0xc67178f2]

/-- The word at byte position `i`, most significant byte first. -/
def blockWord (block : Bytes) (i : Nat) : UInt32 :=
  match block.drop i with
  | b₀ :: b₁ :: b₂ :: b₃ :: _ => wordOfBytes b₃ b₂ b₁ b₀
  | _ => 0

/-- The sixteen words of a block. -/
def blockWords (block : Bytes) : Vector UInt32 16 :=
  Vector.ofFn fun i => blockWord block (4 * i)

/-- Message word diffusion for the word fifteen places back. -/
def smallSigma0 (x : UInt32) : UInt32 :=
  rotateRight x 7 ^^^ rotateRight x 18 ^^^ x >>> 3

/-- Message word diffusion for the word two places back. -/
def smallSigma1 (x : UInt32) : UInt32 :=
  rotateRight x 17 ^^^ rotateRight x 19 ^^^ x >>> 10

/-- The block words followed by `extra` further schedule words, each from four earlier ones. -/
def schedule (block : Vector UInt32 16) : (extra : Nat) → Vector UInt32 (16 + extra)
  | 0 => block
  | extra + 1 =>
    let words := schedule block extra
    words.push (words[extra] + smallSigma0 words[extra + 1] + words[extra + 9]
      + smallSigma1 words[extra + 14])

/-- One round: mixes a schedule word, with its round constant added, into the chain. -/
def Chain.round (s : Chain) (input : UInt32) : Chain :=
  let sum1 := rotateRight s.e 6 ^^^ rotateRight s.e 11 ^^^ rotateRight s.e 25
  let choice := (s.e &&& s.f) ^^^ (~~~s.e &&& s.g)
  let sum0 := rotateRight s.a 2 ^^^ rotateRight s.a 13 ^^^ rotateRight s.a 22
  let majority := (s.a &&& s.b) ^^^ (s.a &&& s.c) ^^^ (s.b &&& s.c)
  let t := s.h + sum1 + choice + input
  ⟨t + (sum0 + majority), s.a, s.b, s.c, s.d + t, s.e, s.f, s.g⟩

/-- Adds two chains word by word. -/
def Chain.add (s t : Chain) : Chain :=
  ⟨s.a + t.a, s.b + t.b, s.c + t.c, s.d + t.d, s.e + t.e, s.f + t.f, s.g + t.g, s.h + t.h⟩

/-- Folds one 64-byte block into the chain. -/
def Chain.compress (chain : Chain) (block : Bytes) : Chain :=
  let words := schedule (blockWords block) 48
  chain.add (Fin.foldl 64 (fun s i => s.round (roundConstants[i] + words[i])) chain)

/-- Folds the first `count` 64-byte blocks of a byte string into the chain. -/
def Chain.absorb (chain : Chain) : (count : Nat) → Bytes → Chain
  | 0, _ => chain
  | count + 1, bytes => (chain.compress (bytes.take 64)).absorb count (bytes.drop 64)

/-- The eight words of a chain, most significant byte first. -/
def Chain.toBytes (s : Chain) : Bytes :=
  [s.a, s.b, s.c, s.d, s.e, s.f, s.g, s.h].flatMap fun word => Bytes.bigEndian 4 word.toNat

/-- What follows a message of `length` bytes: one set bit, zeros up to the last eight bytes of a
block, and the bit length. -/
def padding (length : Nat) : Bytes :=
  0x80 :: List.replicate ((119 - length % 64) % 64) 0 ++ Bytes.bigEndian 8 (8 * length)

/-- The SHA-256 digest of a message. -/
def hash (message : Bytes) : Bytes :=
  let padded := message ++ padding message.length
  (initialChain.absorb (padded.length / 64) padded).toBytes

/-- Every chain is written as 32 bytes. -/
@[simp] theorem Chain.length_toBytes (s : Chain) : s.toBytes.length = 32 := by
  simp [Chain.toBytes]

/-- Every digest has 32 bytes. -/
@[simp] theorem length_hash (message : Bytes) : (hash message).length = 32 := by
  simp [hash]

end SeededGarbling.Sha256
