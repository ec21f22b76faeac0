import SeededGarbling.Permutation.Buffer

/-!
# The permutation on three buffers

A pass keeps three buffers: the two halves and one for the next mask. Every round pushes its number
on the half it asks about, cuts it off again, and lets the buffers change places, so that the half
that was masked becomes room for the next mask.
-/

namespace SeededGarbling

/-- The buffers of a pass. -/
structure Scratchpad where
  /-- The left half. -/
  left : Bytes
  /-- The right half. -/
  right : Bytes
  /-- Room for the next mask. What it holds when a mask is asked for does not count. -/
  scratch : Bytes

namespace Scratchpad

variable {m : Type → Type} [Monad m]

/-- The buffers before the first round: the halves of a block, and zeros. -/
def ofBlock (block : Bytes) : Scratchpad where
  left := block.take (block.length / 2)
  right := block.drop (block.length / 2)
  scratch := List.replicate (block.length / 2) 0

/-- The halves change places. -/
def swapHalves (pad : Scratchpad) : Scratchpad :=
  { pad with left := pad.right, right := pad.left }

/-- The left half and the mask change places. -/
def swapLeft (pad : Scratchpad) : Scratchpad :=
  { pad with left := pad.scratch, scratch := pad.left }

/-- The right half and the mask change places. -/
def swapRight (pad : Scratchpad) : Scratchpad :=
  { pad with right := pad.scratch, scratch := pad.right }

/-- One round on the buffers: the mask is as long as the room for it, and the right half is cut back
to the length of a half once it has been asked about. -/
def permuteRound (f : RoundFunction m) (half : Nat) (pad : Scratchpad) (number : UInt8) :
    ExceptT PrimitiveError m Scratchpad := do
  let input := pad.right ++ [number]
  let mask ← f input pad.scratch.length
  let filled : Scratchpad :=
    { pad with right := input.take half, scratch := Bytes.xorPrefix mask.toList pad.left }
  return filled.swapHalves.swapRight

/-- Undoes one round on the buffers. -/
def invertRound (f : RoundFunction m) (half : Nat) (pad : Scratchpad) (number : UInt8) :
    ExceptT PrimitiveError m Scratchpad := do
  let input := pad.left ++ [number]
  let mask ← f input pad.scratch.length
  let filled : Scratchpad :=
    { pad with left := input.take half, scratch := Bytes.xorPrefix mask.toList pad.right }
  return filled.swapHalves.swapLeft

/-- All rounds of a direction, in order. -/
def pass (f : RoundFunction m) (direction : Direction) (pad : Scratchpad) :
    ExceptT PrimitiveError m Scratchpad :=
  match direction with
  | .forward => roundNumbers.foldlM (permuteRound f pad.left.length) pad
  | .inverse => roundNumbers.reverse.foldlM (invertRound f pad.left.length) pad

/-- Takes a byte string of even length through the rounds, on buffers. -/
def passBlock (f : RoundFunction m) (direction : Direction) (block : Bytes) :
    ExceptT PermutationError m Bytes :=
  if block.length % 2 = 0 then
    ExceptT.adapt .roundFunction do
      let pad ← pass f direction (ofBlock block)
      return pad.left ++ pad.right
  else
    throw (.oddLength block.length)

end Scratchpad

end SeededGarbling
