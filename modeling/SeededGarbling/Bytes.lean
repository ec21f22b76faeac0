/-!
# Byte strings and words

Byte strings are lists, so that concatenation and cutting have the list laws.
Numbers enter and leave them digit by digit in base 256, in either order, at a
chosen width; the width wraps, so a wider number loses its high digits only.
-/

namespace SeededGarbling

/-- A byte string of any length. -/
abbrev Bytes := List UInt8

namespace Bytes

/-- The `width` low base-256 digits of a number, least significant first. -/
def littleEndian : (width : Nat) → Nat → Bytes
  | 0, _ => []
  | width + 1, n => UInt8.ofNat n :: littleEndian width (n / 256)

/-- The `width` low base-256 digits of a number, most significant first. -/
def bigEndian (width n : Nat) : Bytes :=
  (littleEndian width n).reverse

/-- The number whose base-256 digits, least significant first, are the given bytes. -/
def toNat (bytes : Bytes) : Nat :=
  bytes.foldr (fun digit rest => digit.toNat + 256 * rest) 0

@[simp] theorem length_littleEndian (width n : Nat) : (littleEndian width n).length = width := by
  induction width generalizing n with
  | zero => rfl
  | succ width ih => simp [littleEndian, ih]

@[simp] theorem length_bigEndian (width n : Nat) : (bigEndian width n).length = width := by
  simp [bigEndian]

/-- Combines the common prefix of two byte strings by exclusive or; bytes of the first that
have no partner are kept, bytes of the second that have none are ignored. -/
def xorPrefix (bytes mask : Bytes) : Bytes :=
  List.zipWith (· ^^^ ·) bytes mask ++ bytes.drop mask.length

/-- Cuts a byte string into `count` blocks of `width` bytes, from the front. Blocks past the
end are short or empty. -/
def blocks (width : Nat) : (count : Nat) → Bytes → List Bytes
  | 0, _ => []
  | count + 1, bytes => bytes.take width :: blocks width count (bytes.drop width)

/-- Cutting at the seams of a concatenation gives its pieces back. -/
theorem blocks_flatten {width : Nat} {pieces : List Bytes} (h : ∀ p ∈ pieces, p.length = width) :
    blocks width pieces.length pieces.flatten = pieces := by
  induction pieces with
  | nil => rfl
  | cons p rest ih =>
    have hp : p.length = width := h p (by simp)
    have hrest := ih fun q hq => h q (by simp [hq])
    simp [blocks, ← hp] at hrest ⊢
    exact hrest

/-- Pieces of one width take as many bytes together as there are pieces times the width. -/
theorem length_flatten_of_forall {width : Nat} {pieces : List Bytes}
    (h : ∀ p ∈ pieces, p.length = width) : pieces.flatten.length = pieces.length * width := by
  rw [List.length_flatten, List.map_congr_left h, List.map_const', List.sum_replicate_nat]

/-- Blocks that cover a byte string are put together to it again. -/
theorem flatten_blocks {width count : Nat} {bytes : Bytes} (h : bytes.length = count * width) :
    (blocks width count bytes).flatten = bytes := by
  induction count generalizing bytes with
  | zero => exact (List.eq_nil_of_length_eq_zero (by omega)).symm
  | succ count ih =>
    have hrest : (bytes.drop width).length = count * width := by
      rw [List.length_drop, h, Nat.succ_mul]
      omega
    rw [blocks, List.flatten_cons, ih hrest, List.take_append_drop]

/-- A byte string of known length as a vector. -/
def toVector {n : Nat} (bytes : Bytes) (h : bytes.length = n) : Vector UInt8 n :=
  ⟨bytes.toArray, by simpa using h⟩

@[simp] theorem toList_toVector {n : Nat} (bytes : Bytes) (h : bytes.length = n) :
    (toVector bytes h).toList = bytes := by
  simp [toVector, Vector.toList]

end Bytes

/-- Exclusive or of two byte vectors of one width. -/
def xorVector {n : Nat} (a b : Vector UInt8 n) : Vector UInt8 n :=
  Vector.zipWith (· ^^^ ·) a b

/-- It does not matter which of the two is the mask. -/
theorem xorVector_comm {n : Nat} (a b : Vector UInt8 n) : xorVector a b = xorVector b a := by
  ext i hi
  rw [xorVector, Vector.getElem_zipWith, UInt8.xor_comm, xorVector, Vector.getElem_zipWith]

/-- Masking twice with one mask changes nothing. -/
@[simp] theorem xorVector_xorVector_cancel {n : Nat} (a b : Vector UInt8 n) :
    xorVector (xorVector a b) b = a := by
  ext i hi
  simp only [xorVector, Vector.getElem_zipWith, UInt8.xor_assoc, UInt8.xor_self, UInt8.xor_zero]

/-- The byte `i` places into a 32-bit word, counted from the least significant end. -/
def wordByte (word : UInt32) (i : Nat) : UInt8 :=
  (word >>> UInt32.ofNat (8 * i)).toUInt8

/-- The 32-bit word with the given bytes, the first one least significant. -/
def wordOfBytes (b₀ b₁ b₂ b₃ : UInt8) : UInt32 :=
  b₀.toUInt32 ||| b₁.toUInt32 <<< 8 ||| b₂.toUInt32 <<< 16 ||| b₃.toUInt32 <<< 24

/-- Rotates a word towards its least significant end by fewer than 32 places. -/
def rotateRight (word amount : UInt32) : UInt32 :=
  word >>> amount ||| word <<< (32 - amount)

/-- Rotates a word towards its most significant end by fewer than 32 places. -/
def rotateLeft (word amount : UInt32) : UInt32 :=
  word <<< amount ||| word >>> (32 - amount)

end SeededGarbling
