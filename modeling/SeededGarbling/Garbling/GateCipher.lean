import SeededGarbling.Garbling.Error
import SeededGarbling.Garbling.Label

/-!
# The gate cipher

Labels come from a function keyed by the seed, pads from the permutation under a public key. The
pad of a row depends on the two labels that open it, on the gate and on the row, so each row of a
table is sealed on its own and opened with one pair of labels.
-/

namespace SeededGarbling

/-- The fixed public key of the permutation. -/
def publicKey : Bytes :=
  (List.range 32).map UInt8.ofNat

/-- Bytes in a row: an output label and its signal bit. -/
def rowLength : Nat := 17

/-- Bytes in a garbled table: four rows. -/
def tableLength : Nat := 4 * rowLength

/-- The signal bits of the two operands, in the order of the rows. -/
def signalPairs : List (Bool × Bool) :=
  [(false, false), (false, true), (true, false), (true, true)]

/-- The row that a pair of signal bits points to. -/
def rowIndex (left right : Bool) : Nat :=
  2 * left.toNat + right.toNat

/-- What a row holds before it is sealed. -/
def plainRow (label : Label) (signal : Bool) : Vector UInt8 17 :=
  label.push signal.toUInt8

/-- The block that the permutation turns into the pad of a row: each label is followed by a number
of eight bytes, the gate after the first and the row after the second. -/
def padBlock (gate row : Nat) (left right : Label) : Halves 24 where
  left := left ++ Bytes.toVector _ (Bytes.length_littleEndian 8 gate)
  right := right ++ Bytes.toVector _ (Bytes.length_littleEndian 8 row)

/-- Bytes in such a block. -/
def padBlockLength : Nat := 48

/-- Takes a pad block from one buffer through the permutation into another of its size. The request is
checked like any other, and a refusal becomes one of garbling. -/
def permutePadBlock (pads : KeyedFunction) (block : Halves 24) : Except GarbleError (Halves 24) :=
  match h : (Permutation.passRange (m := Id) pads .forward block.toBytes 0
      (List.replicate padBlockLength 0) 0 padBlockLength).run with
  | .ok permuted =>
    .ok (.ofBytes permuted (Permutation.length_of_passRange (by simp [padBlockLength]) (by simp) h))
  | .error cause => .error (.ofPermutation cause)

/-- A pad block and its range fit the permutation, so nothing but the round function can refuse. -/
theorem permutePadBlock_eq (pads : KeyedFunction) (block : Halves 24) :
    permutePadBlock pads block = (block.permute (m := Id) pads).run.mapError .key := by
  have houtput : (List.replicate padBlockLength (0 : UInt8)).length = 2 * 24 := List.length_replicate
  have hpass := Permutation.run_passRange_whole pads .forward block houtput
  -- the answer that is matched on is the one known from `hpass`, which leaves one branch each time
  unfold permutePadBlock
  cases hpermute : (block.permute (m := Id) pads).run with
  | error cause =>
    rw [Halves.pass, hpermute] at hpass
    split
    · next h => cases hpass.symm.trans h
    · next h =>
      cases hpass.symm.trans h
      rfl
  | ok last =>
    rw [Halves.pass, hpermute] at hpass
    split
    · next h =>
      cases hpass.symm.trans h
      exact congrArg Except.ok last.ofBytes_toBytes
    · next h => cases hpass.symm.trans h

/-- The functions that one run derives labels and pads with. -/
structure GateCipher where
  /-- Derives the labels of a wire from its number. -/
  labels : KeyedFunction
  /-- The round function of the permutation behind the pads. -/
  pads : KeyedFunction

namespace GateCipher

/-- The labels and the permute bit of a wire, from 33 bytes derived from its number. -/
def wireLabels (cipher : GateCipher) (wire : Wire) : Except PrimitiveError WireLabels := do
  let bytes ← cipher.labels (Bytes.littleEndian 4 wire.toNat) 33
  return ⟨bytes.take 16, (bytes.drop 16).take 16, bytes[32] &&& 1 == 1⟩

/-- The labels of several wires. -/
def labelsOf (cipher : GateCipher) (wires : List Wire) :
    Except PrimitiveError (WireMap WireLabels) := do
  let entries ← wires.mapM fun wire => do
    let labels ← cipher.wireLabels wire
    return (wire, labels)
  return .ofList entries

/-- The pad of a row: the leading bytes of the permuted block, masked by the block itself. -/
def rowPad (cipher : GateCipher) (gate row : Nat) (left right : Label) :
    Except GarbleError (Vector UInt8 17) := do
  let block := padBlock gate row left right
  let permuted ← permutePadBlock cipher.pads block
  return (xorVector permuted.left block.left).take 17

/-- The sealed row for a pair of signal bits of the operands. -/
def sealRow (cipher : GateCipher) (gate : Nat) (table : TruthTable) (a b c : WireLabels)
    (signals : Bool × Bool) : Except GarbleError Bytes := do
  let va := signals.1 ^^ a.permute
  let vb := signals.2 ^^ b.permute
  let vc := table.eval va vb
  let pad ← cipher.rowPad gate (rowIndex signals.1 signals.2) (a.label va) (b.label vb)
  return (xorVector (plainRow (c.label vc) (c.signal vc)) pad).toList

/-- The garbled table of the gate with the given number. -/
def garbleGate (cipher : GateCipher) (indexed : Gate × Nat) : Except GarbleError Bytes := do
  let (gate, index) := indexed
  let a ← (cipher.wireLabels gate.left).mapError .key
  let b ← (cipher.wireLabels gate.right).mapError .key
  let c ← (cipher.wireLabels gate.output).mapError .key
  let rows ← signalPairs.mapM (cipher.sealRow index gate.table a b c)
  return rows.flatten

/-- Opens a row with the labels that belong to it: the label and signal byte of the output. -/
def openRow (cipher : GateCipher) (gate row : Nat) (left right : Label) (sealedRow : Vector UInt8 17) :
    Except GarbleError (Vector UInt8 17) := do
  let pad ← cipher.rowPad gate row left right
  return xorVector sealedRow pad

end GateCipher

end SeededGarbling
