import Mathlib.Algebra.Group.Nat.Defs
import SeededGarbling.Permutation.Scratchpad

/-!
# The permutation in place

Offsets and lengths are 64-bit words, whose sums wrap, and buffers are cut and overwritten where the
words say. Ranges and evenness are checked in front of the rounds, and the buffer is written behind
them.
-/

namespace SeededGarbling

/-- A byte string whose size is a 64-bit word. -/
structure Buffer where
  /-- What the buffer holds. -/
  bytes : Bytes
  /-- The size is in range. -/
  fits : bytes.length < 2 ^ 64

namespace Buffer

/-- The size as a word. -/
def size (buffer : Buffer) : UInt64 :=
  UInt64.ofNat buffer.bytes.length

@[simp] theorem toNat_size (buffer : Buffer) : buffer.size.toNat = buffer.bytes.length :=
  UInt64.toNat_ofNat_of_lt' buffer.fits

/-- As many zeros. -/
def zeros (buffer : Buffer) : Buffer where
  bytes := List.replicate buffer.bytes.length 0
  fits := by simpa using buffer.fits

/-- The bytes from one position up to another, if these lie in order and in the buffer. -/
def slice? (buffer : Buffer) (start stop : UInt64) : Option Bytes :=
  if start.toNat ≤ stop.toNat ∧ stop.toNat ≤ buffer.bytes.length then
    some ((buffer.bytes.drop start.toNat).take (stop.toNat - start.toNat))
  else
    none

/-- The buffer with other bytes from an offset on. -/
def overwrite (buffer : Buffer) (offset : Nat) (bytes : Bytes)
    (h : offset + bytes.length ≤ buffer.bytes.length) : Buffer where
  bytes := Permutation.splice buffer.bytes offset bytes
  fits := by
    rw [Permutation.length_splice h]
    exact buffer.fits

/-- Other bytes from one position up to another, if these lie in order and in the buffer and the bytes
are as many as there are between them. -/
def overwrite? (buffer : Buffer) (start stop : UInt64) (bytes : Bytes) : Option Buffer :=
  if h : stop.toNat ≤ buffer.bytes.length ∧ start.toNat + bytes.length = stop.toNat then
    some (buffer.overwrite start.toNat bytes (by omega))
  else
    none

/-- The bytes of a range, its offset and its length given as words. -/
def range (buffer : Buffer) (offset length : UInt64) : Bytes :=
  (buffer.bytes.drop offset.toNat).take length.toNat

end Buffer

/-- Why an operation on buffers stops. -/
inductive Fault where
  /-- An access falls outside its buffer. -/
  | outside
  /-- The permutation refuses. -/
  | refused (cause : PermutationError)
  deriving DecidableEq, Repr

/-- The buffer that is written, beside what the round function keeps. -/
structure Memory (σ : Type) where
  /-- The buffer. -/
  output : Buffer
  /-- The state of the round function. -/
  inner : σ

namespace Permutation

/-- The sum of two words, unless it is none. -/
def checkedAdd (a b : UInt64) : Option UInt64 :=
  if a.toNat + b.toNat < 2 ^ 64 then some (a + b) else none

/-- Refuses a range that ends behind the end of its buffer, or behind the last word. -/
def checkWords (buffer : BufferRole) (size offset length : UInt64) : Except PermutationError Unit :=
  match checkedAdd offset length with
  | some stop =>
    if stop ≤ size then .ok () else
      .error (.outOfRange buffer offset.toNat length.toNat size.toNat)
  | none => .error (.outOfRange buffer offset.toNat length.toNat size.toNat)

/-- An access that may fall outside. -/
def inside {α : Type} : Option α → Except Fault α
  | some a => .ok a
  | none => .error .outside

/-- Checks both ranges, and that there are halves. -/
def checkRequest (inputSize inputOffset outputSize outputOffset length : UInt64) :
    Except PermutationError Unit := do
  checkWords .input inputSize inputOffset length
  checkWords .output outputSize outputOffset length
  if length % 2 = 0 then .ok () else .error (.oddLength length.toNat)

/-- Checks a request, and cuts the two halves out of the input. -/
def splitBlock (input : Buffer) (inputOffset outputSize outputOffset length : UInt64) :
    Except Fault (Bytes × Bytes) := do
  (checkRequest input.size inputOffset outputSize outputOffset length).mapError .refused
  let left ← inside (input.slice? inputOffset (inputOffset + length / 2))
  let right ← inside (input.slice? (inputOffset + length / 2) (inputOffset + length))
  return (left, right)

section Steps

variable {σ α : Type}

/-- Rounds do not reach the buffer. -/
def onRounds (x : ExceptT PrimitiveError (StateM σ) α) : ExceptT Fault (StateM (Memory σ)) α :=
  fun memory =>
    let (outcome, inner) := x.run memory.inner
    (outcome.mapError fun cause => .refused (.roundFunction cause), { memory with inner })

/-- Overwrites part of the buffer. -/
def write (start stop : UInt64) (bytes : Bytes) : ExceptT Fault (StateM (Memory σ)) Unit := do
  let memory ← get
  match memory.output.overwrite? start stop bytes with
  | some output => set { memory with output }
  | none => throw .outside

/-- Writes both halves, one behind the other. -/
def joinBlock (outputOffset : UInt64) (left right : Bytes) :
    ExceptT Fault (StateM (Memory σ)) Unit := do
  let half := UInt64.ofNat left.length
  write outputOffset (outputOffset + half) left
  write (outputOffset + half) (outputOffset + 2 * half) right

/-- Takes a range of the input through the permutation or its inverse into a range of the buffer. -/
def passInPlace (g : RoundFunction (StateM σ)) (direction : Direction) (input : Buffer)
    (inputOffset outputOffset length : UInt64) : ExceptT Fault (StateM (Memory σ)) Unit := do
  let memory ← get
  let (left, right) ← MonadExcept.ofExcept
    (splitBlock input inputOffset memory.output.size outputOffset length)
  let pad ← onRounds (Scratchpad.pass g direction ⟨left, right, List.replicate left.length 0⟩)
  joinBlock outputOffset pad.left pad.right

/-- Takes a whole buffer into a new one. -/
def passWhole (g : RoundFunction (StateM σ)) (direction : Direction) (block : Buffer) :
    ExceptT Fault (StateM σ) Bytes :=
  fun s =>
    let left := (passInPlace g direction block 0 0 block.size).run ⟨block.zeros, s⟩
    (left.1.map fun _ => left.2.output.bytes, left.2.inner)

end Steps

end Permutation

end SeededGarbling
