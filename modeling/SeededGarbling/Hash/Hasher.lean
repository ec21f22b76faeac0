import SeededGarbling.Algorithm
import SeededGarbling.Hash.Blake3
import SeededGarbling.Hash.Sha256

/-!
# Hashers

A hasher holds the bytes absorbed since its last digest. Finishing yields the one-shot digest of
those bytes and leaves the hasher with none, so it can be used again.
-/

namespace SeededGarbling

/-- Bytes in a digest, whatever the algorithm. -/
def digestLength : Nat := 32

/-- The digest of a whole byte string. -/
def HashAlgorithm.digest : HashAlgorithm → Bytes → Bytes
  | blake3, message => Blake3.hash message
  | sha256, message => Sha256.hash message

@[simp] theorem HashAlgorithm.length_digest (algorithm : HashAlgorithm) (message : Bytes) :
    (algorithm.digest message).length = digestLength := by
  cases algorithm <;> simp [digest, digestLength]

/-- An algorithm together with the bytes absorbed so far. -/
structure Hasher where
  /-- The hash in use. -/
  algorithm : HashAlgorithm
  /-- The bytes absorbed since the last digest. -/
  pending : Array UInt8 := #[]
  deriving DecidableEq

namespace Hasher

/-- A hasher that has absorbed nothing. -/
def new (algorithm : HashAlgorithm) : Hasher where
  algorithm := algorithm

/-- Absorbs a byte string. -/
def update (hasher : Hasher) (data : Bytes) : Hasher :=
  { hasher with pending := hasher.pending ++ data }

/-- The digest of what was absorbed; nothing is forgotten. -/
def peek (hasher : Hasher) : Bytes :=
  hasher.algorithm.digest hasher.pending.toList

/-- Forgets what was absorbed. -/
def reset (hasher : Hasher) : Hasher :=
  { hasher with pending := #[] }

/-- The digest of what was absorbed, and the hasher without it. -/
def finalize (hasher : Hasher) : Bytes × Hasher :=
  (hasher.peek, hasher.reset)

/-- Absorbs several byte strings in order. -/
def updateAll (hasher : Hasher) (pieces : List Bytes) : Hasher :=
  pieces.foldl update hasher

@[simp] theorem algorithm_update (hasher : Hasher) (data : Bytes) :
    (hasher.update data).algorithm = hasher.algorithm := rfl

/-- An update appends to the pending bytes. -/
@[simp] theorem pending_update (hasher : Hasher) (data : Bytes) :
    (hasher.update data).pending.toList = hasher.pending.toList ++ data := by
  simp [update]

@[simp] theorem algorithm_updateAll (hasher : Hasher) (pieces : List Bytes) :
    (hasher.updateAll pieces).algorithm = hasher.algorithm := by
  induction pieces generalizing hasher with
  | nil => rfl
  | cons piece rest ih => exact ih (hasher.update piece)

/-- Where one piece ends and the next begins leaves no trace. -/
@[simp] theorem pending_updateAll (hasher : Hasher) (pieces : List Bytes) :
    (hasher.updateAll pieces).pending.toList = hasher.pending.toList ++ pieces.flatten := by
  induction pieces generalizing hasher with
  | nil => simp [updateAll]
  | cons piece rest ih => simpa [updateAll] using ih (hasher.update piece)

end Hasher

end SeededGarbling
