import SeededGarbling.Permutation.Rounds

/-!
# The permutation on byte strings and buffers

A byte string of even length is a block. On buffers, a range of the input goes through the
permutation into a range of the output. Ranges and evenness are checked first, in that order, and
the output changes only once every round has answered.
-/

namespace SeededGarbling

/-- Which of two buffers a range belongs to. -/
inductive BufferRole where
  /-- The buffer that is read. -/
  | input
  /-- The buffer that is written. -/
  | output
  deriving DecidableEq, Repr

/-- The word a buffer goes by in messages. -/
def BufferRole.name : BufferRole → String
  | input => "input"
  | output => "output"

/-- Why the permutation refuses a request. -/
inductive PermutationError where
  /-- The length is odd, so there are no halves. -/
  | oddLength (length : Nat)
  /-- A range does not fit its buffer. -/
  | outOfRange (buffer : BufferRole) (offset length size : Nat)
  /-- The permutation takes any even length. -/
  | noFixedBlockSize
  /-- The round function failed. -/
  | roundFunction (cause : PrimitiveError)
  deriving DecidableEq, Repr

/-- The wording of a refusal of the permutation. -/
def PermutationError.message : PermutationError → String
  | oddLength length => s!"length of input must be even, got {length}"
  | outOfRange buffer offset length size =>
    s!"wrong offset for the given {buffer.name} buffer: {offset}+{length} exceeds {size}"
  | noFixedBlockSize => "varying-length prp has no fixed block size"
  | roundFunction cause => s!"round function failed: {cause.message}"

namespace Permutation

/-- There is no block size to report. -/
def blockSize : Except PermutationError Nat :=
  .error .noFixedBlockSize

variable {m : Type → Type} [Monad m]

/-- Takes a byte string of even length through the permutation or its inverse. -/
def passBlock (f : RoundFunction m) (direction : Direction) (block : Bytes) :
    ExceptT PermutationError m Bytes :=
  if h : block.length % 2 = 0 then
    ExceptT.adapt .roundFunction do
      let result ← (Halves.ofBytes (n := block.length / 2) block (by omega)).pass f direction
      return result.toBytes
  else
    throw (.oddLength block.length)

/-- Refuses a range that ends behind the end of its buffer. -/
def checkRange (buffer : BufferRole) (offset length size : Nat) : Except PermutationError Unit :=
  if offset + length ≤ size then .ok () else .error (.outOfRange buffer offset length size)

/-- Overwrites the bytes from an offset on. -/
def splice (buffer : Bytes) (offset : Nat) (bytes : Bytes) : Bytes :=
  buffer.take offset ++ bytes ++ buffer.drop (offset + bytes.length)

/-- Takes `length` bytes of the input through the permutation or its inverse into the output. -/
def passRange (f : RoundFunction m) (direction : Direction) (input : Bytes) (inputOffset : Nat)
    (output : Bytes) (outputOffset length : Nat) : ExceptT PermutationError m Bytes := do
  MonadExcept.ofExcept (checkRange .input inputOffset length input.length)
  MonadExcept.ofExcept (checkRange .output outputOffset length output.length)
  let block ← passBlock f direction ((input.drop inputOffset).take length)
  return splice output outputOffset block

/-- A range is accepted exactly when it fits. -/
theorem checkRange_eq_ok_iff {buffer : BufferRole} {offset length size : Nat} :
    checkRange buffer offset length size = .ok () ↔ offset + length ≤ size := by
  unfold checkRange
  split
  · next h => simp [h]
  · next h => simp [h]

/-- Two halves put together are a block that is taken apart into the same halves. -/
theorem passBlock_toBytes {n : Nat} (f : RoundFunction m) (direction : Direction)
    (block : Halves n) :
    passBlock f direction block.toBytes = ExceptT.adapt .roundFunction (do
      let result ← block.pass f direction
      return result.toBytes) := by
  have heven : block.toBytes.length % 2 = 0 := by
    rw [Halves.length_toBytes]
    omega
  have hhalf : block.toBytes.length / 2 = n := by
    rw [Halves.length_toBytes]
    omega
  have hhalves : ∀ k (hk : block.toBytes.length = 2 * k), k = n →
      (do
        let result ← (Halves.ofBytes block.toBytes hk).pass f direction
        return result.toBytes) = (do
        let result ← block.pass f direction
        return result.toBytes : ExceptT PrimitiveError m Bytes) := by
    rintro k hk rfl
    rw [Halves.ofBytes_toBytes]
  unfold passBlock
  rw [dif_pos heven, hhalves _ _ hhalf]

section Ranges

variable {buffer bytes : Bytes} {offset : Nat}

/-- Overwriting does not change the size of a buffer. -/
theorem length_splice (h : offset + bytes.length ≤ buffer.length) :
    (splice buffer offset bytes).length = buffer.length := by
  simp only [splice, List.length_append, List.length_take, List.length_drop]
  omega

/-- What was written is read back. -/
theorem take_drop_splice (h : offset + bytes.length ≤ buffer.length) :
    ((splice buffer offset bytes).drop offset).take bytes.length = bytes := by
  have hprefix : (buffer.take offset).length = offset := by
    rw [List.length_take]
    omega
  unfold splice
  rw [List.append_assoc, List.drop_left' hprefix, List.take_left' rfl]

/-- A range is as long as asked for where it fits. -/
theorem length_take_drop {length : Nat} (h : offset + length ≤ buffer.length) :
    ((buffer.drop offset).take length).length = length := by
  rw [List.length_take, List.length_drop]
  omega

/-- A buffer that is overwritten as a whole holds what was written. -/
theorem splice_zero (h : bytes.length = buffer.length) : splice buffer 0 bytes = bytes := by
  rw [splice, List.take_zero, List.nil_append, List.drop_eq_nil_of_le (by omega), List.append_nil]

end Ranges

section Pure

variable {f : KeyedFunction} {direction : Direction}

/-- Without effects, two halves pass as bytes as they do as halves. -/
theorem run_passBlock_toBytes {n : Nat} (block : Halves n) :
    (passBlock (m := Id) f direction block.toBytes).run =
      ((block.pass (m := Id) f direction).run.map Halves.toBytes).mapError .roundFunction := by
  rw [passBlock_toBytes]
  change Except.mapError _ (ExceptT.bindCont (m := Id) _ (block.pass (m := Id) f direction).run) = _
  cases (block.pass (m := Id) f direction).run with
  | error cause => rfl
  | ok last => rfl

/-- A block keeps its length. -/
theorem length_of_passBlock {block result : Bytes}
    (h : (passBlock (m := Id) f direction block).run = .ok result) :
    result.length = block.length := by
  by_cases heven : block.length % 2 = 0
  · have hlength : block.length = 2 * (block.length / 2) := by omega
    rw [← Halves.toBytes_ofBytes block hlength, run_passBlock_toBytes] at h
    cases hpass : ((Halves.ofBytes block hlength).pass (m := Id) f direction).run with
    | error cause =>
      rw [hpass] at h
      cases h
    | ok last =>
      rw [hpass] at h
      cases h
      rw [Halves.length_toBytes, ← hlength]
  · rw [passBlock, dif_neg heven] at h
    cases h

variable {input output : Bytes} {inputOffset outputOffset length : Nat}

/-- Ranges that fit pass as their block does. -/
theorem run_passRange_of_fits (hinput : inputOffset + length ≤ input.length)
    (houtput : outputOffset + length ≤ output.length) :
    (passRange (m := Id) f direction input inputOffset output outputOffset length).run =
      (passBlock (m := Id) f direction ((input.drop inputOffset).take length)).run.map
        (splice output outputOffset) := by
  unfold passRange
  rw [checkRange_eq_ok_iff.mpr hinput, checkRange_eq_ok_iff.mpr houtput]
  change ExceptT.bindCont (m := Id) _ (passBlock (m := Id) f direction _).run = _
  cases (passBlock (m := Id) f direction ((input.drop inputOffset).take length)).run with
  | error cause => rfl
  | ok block => rfl

/-- The buffer that is written keeps its length. -/
theorem length_of_passRange {result : Bytes} (hinput : inputOffset + length ≤ input.length)
    (houtput : outputOffset + length ≤ output.length)
    (h : (passRange (m := Id) f direction input inputOffset output outputOffset length).run =
      .ok result) :
    result.length = output.length := by
  rw [run_passRange_of_fits hinput houtput] at h
  cases hpass : (passBlock (m := Id) f direction ((input.drop inputOffset).take length)).run with
  | error cause =>
    rw [hpass] at h
    cases h
  | ok block =>
    rw [hpass] at h
    cases h
    have hblock := length_of_passBlock hpass
    rw [length_take_drop hinput] at hblock
    apply length_splice
    rw [hblock]
    exact houtput

/-- A whole block passes into a buffer of its size, and only the round function can refuse it. -/
theorem run_passRange_whole {n : Nat} (f : KeyedFunction) (direction : Direction)
    (block : Halves n) (houtput : output.length = 2 * n) :
    (passRange (m := Id) f direction block.toBytes 0 output 0 (2 * n)).run =
      ((block.pass (m := Id) f direction).run.map Halves.toBytes).mapError .roundFunction := by
  have hlength := block.length_toBytes
  rw [run_passRange_of_fits (by omega) (by omega), List.drop_zero,
    List.take_of_length_le (Nat.le_of_eq hlength), run_passBlock_toBytes]
  cases (block.pass (m := Id) f direction).run with
  | error cause => rfl
  | ok last =>
    have hwhole : last.toBytes.length = output.length := last.length_toBytes.trans houtput.symm
    exact congrArg Except.ok (splice_zero hwhole)

end Pure

end Permutation

end SeededGarbling
