import SeededGarbling.KeyedFunction

/-!
# The four-round permutation

A block is two halves of one width. A round replaces the pair `(left, right)` by
`(right, left ⊕ f (right ‖ number))`, which can be undone without inverting `f`. Four rounds,
numbered from one, make the permutation; its inverse undoes them from the last to the first.
-/

namespace SeededGarbling

/-- A block of even length as two halves. -/
structure Halves (n : Nat) where
  /-- The first half. -/
  left : Vector UInt8 n
  /-- The second half. -/
  right : Vector UInt8 n
  deriving DecidableEq

/-- Which way a block is taken through the rounds. -/
inductive Direction where
  /-- Through the permutation. -/
  | forward
  /-- Through its inverse. -/
  | inverse
  deriving DecidableEq, Repr

/-- The numbers of the rounds, in the order of the permutation. -/
def roundNumbers : List UInt8 :=
  [1, 2, 3, 4]

namespace Halves

variable {m : Type → Type} [Monad m] {n : Nat}

/-- Both halves, one after the other. -/
def toBytes (block : Halves n) : Bytes :=
  block.left.toList ++ block.right.toList

/-- The halves of a byte string of even length. -/
def ofBytes (bytes : Bytes) (h : bytes.length = 2 * n) : Halves n where
  left := Bytes.toVector (bytes.take n) (by simp; omega)
  right := Bytes.toVector (bytes.drop n) (by simp; omega)

@[simp] theorem toBytes_ofBytes (bytes : Bytes) (h : bytes.length = 2 * n) :
    (ofBytes bytes h).toBytes = bytes := by
  simp [ofBytes, toBytes]

@[simp] theorem length_toBytes (block : Halves n) : block.toBytes.length = 2 * n := by
  simp [toBytes]
  omega

@[simp] theorem ofBytes_toBytes (block : Halves n) :
    ofBytes block.toBytes block.length_toBytes = block := by
  obtain ⟨left, right⟩ := block
  simp only [ofBytes, toBytes, mk.injEq, ← Vector.toList_inj, Bytes.toList_toVector]
  exact ⟨List.take_left' (by simp), List.drop_left' (by simp)⟩

/-- One round of the permutation. -/
def permuteRound (f : RoundFunction m) (block : Halves n) (number : UInt8) :
    ExceptT PrimitiveError m (Halves n) := do
  let mask ← f (block.right.toList ++ [number]) n
  return ⟨block.right, xorVector block.left mask⟩

/-- Undoes one round. -/
def invertRound (f : RoundFunction m) (block : Halves n) (number : UInt8) :
    ExceptT PrimitiveError m (Halves n) := do
  let mask ← f (block.left.toList ++ [number]) n
  return ⟨xorVector block.right mask, block.left⟩

/-- The permutation: every round in order. -/
def permute (f : RoundFunction m) (block : Halves n) : ExceptT PrimitiveError m (Halves n) :=
  roundNumbers.foldlM (permuteRound f) block

/-- The inverse permutation: every round undone, the last one first. -/
def invert (f : RoundFunction m) (block : Halves n) : ExceptT PrimitiveError m (Halves n) :=
  roundNumbers.reverse.foldlM (invertRound f) block

/-- The permutation or its inverse. -/
def pass (f : RoundFunction m) : Direction → Halves n → ExceptT PrimitiveError m (Halves n)
  | .forward => permute f
  | .inverse => invert f

end Halves

end SeededGarbling
