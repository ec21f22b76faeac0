import SeededGarbling.Algorithm
import SeededGarbling.Hash.Sha256

/-!
# Key derivation

HMAC over SHA-256 takes keys of any length. HKDF extracts a key from input material and expands a
key to as many bytes as its one-byte block counter allows.
-/

namespace SeededGarbling

namespace HmacSha256

/-- Brings a key to the 64 bytes of a block: longer keys are hashed, shorter ones filled up with
zeros. -/
def blockKey (key : Bytes) : Bytes :=
  let short := if key.length > 64 then Sha256.hash key else key
  short ++ List.replicate (64 - short.length) 0

/-- The authentication code of a message under a key. -/
def mac (key message : Bytes) : Bytes :=
  let block := blockKey key
  let inner := Sha256.hash (block.map (· ^^^ 0x36) ++ message)
  Sha256.hash (block.map (· ^^^ 0x5c) ++ inner)

/-- Every code has 32 bytes. -/
@[simp] theorem length_mac (key message : Bytes) : (mac key message).length = 32 := by
  simp [mac]

end HmacSha256

namespace Hkdf

/-- Bytes in one expansion block. -/
def blockLength : Nat := 32

/-- The most that one expansion can yield: 255 blocks. -/
def maximumLength : Nat := 255 * blockLength

/-- Concentrates input material into a 32-byte key. -/
def extract (salt material : Bytes) : Bytes :=
  HmacSha256.mac salt material

/-- `count` expansion blocks, from the one with number `index`: each block authenticates the
previous one, the context and its own number. -/
def chain (key info : Bytes) : (count index : Nat) → (previous : Bytes) → Bytes
  | 0, _, _ => []
  | count + 1, index, previous =>
    let block := HmacSha256.mac key (previous ++ info ++ [UInt8.ofNat index])
    block ++ chain key info count (index + 1) block

@[simp] theorem length_chain (key info : Bytes) (count index : Nat) (previous : Bytes) :
    (chain key info count index previous).length = count * blockLength := by
  induction count generalizing index previous with
  | zero => simp [chain]
  | succ count ih => simp [chain, ih, blockLength, Nat.succ_mul, Nat.add_comm]

/-- The first `length` bytes of as many blocks as that takes. -/
def output (key info : Bytes) (length : Nat) : Bytes :=
  (chain key info ((length + 31) / blockLength) 1 []).take length

@[simp] theorem length_output (key info : Bytes) (length : Nat) :
    (output key info length).length = length := by
  simp [output, blockLength]
  omega

/-- Expands a key of any length to `length` bytes bound to a context. -/
def expand (key info : Bytes) (length : Nat) : Except PrimitiveError Bytes :=
  if length > maximumLength then
    .error (.outputTooLong length maximumLength)
  else
    .ok (output key info length)

/-- Fills chunks with blocks, from the one behind number `index`; of a block that is longer than its
chunk the end is dropped. -/
def fillChunks (key info : Bytes) : (index : Nat) → (previous : Option Bytes) → List Bytes → List Bytes
  | _, _, [] => []
  | index, previous, chunk :: chunks =>
    let code := HmacSha256.mac key (previous.getD [] ++ info ++ [UInt8.ofNat (index + 1)])
    code.take chunk.length :: fillChunks key info (index + 1) (some code) chunks

/-- Expands a key into a buffer. -/
def expandInPlace (key info buffer : Bytes) : Except PrimitiveError Unit × Bytes :=
  if buffer.length > maximumLength then
    (.error (.outputTooLong buffer.length maximumLength), buffer)
  else
    let chunks := Bytes.blocks blockLength ((buffer.length + 31) / blockLength) buffer
    (.ok (), (fillChunks key info 0 none chunks).flatten)

/-- Extraction followed by expansion. -/
def derive (salt material info : Bytes) (length : Nat) : Except PrimitiveError Bytes :=
  expand (extract salt material) info length

end Hkdf

end SeededGarbling
