import SeededGarbling.Bytes

/-!
# Keystreams

A keystream is an unbounded byte stream that is computed block by block. Any range of it can be
read without reading what comes before, and a range holds exactly the bytes at its positions.
-/

namespace SeededGarbling

/-- An unbounded byte stream cut into blocks of one width. -/
structure Keystream where
  /-- Bytes in a block. -/
  width : Nat
  /-- Blocks are not empty. -/
  width_pos : 0 < width
  /-- The blocks, numbered from zero. -/
  block : Nat → Vector UInt8 width

namespace Keystream

/-- The byte at a position. -/
def byteAt (stream : Keystream) (position : Nat) : UInt8 :=
  have := Nat.mod_lt position stream.width_pos
  (stream.block (position / stream.width))[position % stream.width]

/-- The `n` bytes from a position on; each block that they touch is computed once. -/
def slice (stream : Keystream) (start n : Nat) : Vector UInt8 n :=
  let first := start / stream.width
  let offset := start % stream.width
  let blocks := Vector.ofFn fun i : Fin ((offset + n) / stream.width + 1) =>
    stream.block (first + i)
  Vector.ofFn fun i =>
    have hblock : (offset + i.val) / stream.width < (offset + n) / stream.width + 1 :=
      Nat.lt_succ_of_le (Nat.div_le_div_right (by omega))
    have hbyte := Nat.mod_lt (offset + i.val) stream.width_pos
    blocks[(offset + i.val) / stream.width][(offset + i.val) % stream.width]

/-- A range holds the bytes at its positions, wherever it begins within a block. -/
theorem getElem_slice (stream : Keystream) (start n i : Nat) (h : i < n) :
    (stream.slice start n)[i] = stream.byteAt (start + i) := by
  have hpos := stream.width_pos
  have hstart := Nat.div_add_mod start stream.width
  have hblock : start / stream.width + (start % stream.width + i) / stream.width =
      (start + i) / stream.width := by
    conv => rhs; rw [← hstart, Nat.add_assoc, Nat.mul_add_div hpos]
  have hbyte : (start % stream.width + i) % stream.width = (start + i) % stream.width := by
    rw [Nat.mod_add_mod]
  simp only [slice, byteAt, Vector.getElem_ofFn, hblock, hbyte]

/-- A range is read in any two pieces. -/
theorem slice_append (stream : Keystream) (start m n : Nat) :
    stream.slice start m ++ stream.slice (start + m) n = stream.slice start (m + n) := by
  ext i hi
  rw [Vector.getElem_append]
  split
  · rw [getElem_slice, getElem_slice]
  · rename_i h
    rw [getElem_slice, getElem_slice, Nat.add_assoc, Nat.add_sub_cancel' (Nat.le_of_not_lt h)]

end Keystream

end SeededGarbling
