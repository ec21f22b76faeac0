import SeededGarbling.Circuit.Assembly
import SeededGarbling.Proofs.AdderWiring

/-!
# Adders are assembled from words

The invariant is the assembly behind the bits so far: their gates and sum wires, the wire to be driven
next and the wire that holds the carry. No width that is supported leads to a number that is no word,
so it makes no difference whether an overflow would stop the assembly or wrap.
-/

namespace SeededGarbling

open Traversal

namespace WordArithmetic

open Adder

variable {j k : Nat}

/-- A sum that is a word is that of the numbers. -/
theorem add_ofNat (arithmetic : WordArithmetic) (h : j + k < 2 ^ 32) :
    arithmetic.add (UInt32.ofNat j) (UInt32.ofNat k) = .ok (UInt32.ofNat (j + k)) := by
  have hsum : UInt32.ofNat j + UInt32.ofNat k = UInt32.ofNat (j + k) := (UInt32.ofNat_add j k).symm
  cases arithmetic with
  | checked =>
    rw [add, toNat_wire (by omega), toNat_wire (by omega), if_pos h, hsum]
  | wrapping => rw [add, hsum]

/-- So is a product. -/
theorem mul_ofNat (arithmetic : WordArithmetic) (hj : j < 2 ^ 32) (hk : k < 2 ^ 32)
    (h : j * k < 2 ^ 32) :
    arithmetic.mul (UInt32.ofNat j) (UInt32.ofNat k) = .ok (UInt32.ofNat (j * k)) := by
  have hproduct : UInt32.ofNat j * UInt32.ofNat k = UInt32.ofNat (j * k) := (UInt32.ofNat_mul j k).symm
  cases arithmetic with
  | checked => rw [mul, toNat_wire hj, toNat_wire hk, if_pos h, hproduct]
  | wrapping => rw [mul, hproduct]

end WordArithmetic

namespace Adder

/-- The assembly behind the first `i` bits. -/
def Assembly.behind (n i : Nat) : Assembly where
  gates := (List.range i).flatMap (bitGates n)
  outputs := (List.range i).map fun j => UInt32.ofNat (carryWire n j + 2)
  next := UInt32.ofNat (carryWire n i + 1)
  carry := UInt32.ofNat (carryWire n i)

section Assemblies

variable {arithmetic : WordArithmetic} {n i : Nat}

/-- A bit appends its gates and its sum wire, and moves on by five wires. -/
theorem Assembly.behind_succ (n i : Nat) : behind n (i + 1) =
    { gates := (behind n i).gates ++ bitGates n i
      outputs := (behind n i).outputs ++ [UInt32.ofNat (carryWire n i + 2)]
      next := UInt32.ofNat (carryWire n i + 6)
      carry := UInt32.ofNat (carryWire n i + 5) } := by
  have hnext : carryWire n (i + 1) = carryWire n i + 5 := by
    unfold carryWire
    omega
  simp only [behind, hnext, List.range_succ, List.flatMap_append, List.flatMap_singleton,
    List.map_append, List.map_singleton]

/-- The gates of a bit lead from one assembly to the next. -/
theorem Assembly.addBit_behind (arithmetic : WordArithmetic) (hi : i < n)
    (hsize : carryWire n n + 1 < 2 ^ 32) :
    (behind n i).addBit arithmetic (UInt32.ofNat n) (UInt32.ofNat i) = .ok (behind n (i + 1)) := by
  have hright : n + i < 2 ^ 32 := by
    unfold carryWire at hsize
    omega
  have hlast : carryWire n i + 6 < 2 ^ 32 := by
    unfold carryWire at hsize ⊢
    omega
  have hwire : ∀ k ≤ 5, arithmetic.add (behind n i).next (UInt32.ofNat k) =
      .ok (UInt32.ofNat (carryWire n i + 1 + k)) :=
    fun k hk => arithmetic.add_ofNat (by omega)
  rw [behind_succ]
  unfold addBit
  refine bind_eq_ok_iff.mpr ⟨_, arithmetic.add_ofNat hright, ?_⟩
  refine bind_eq_ok_iff.mpr ⟨_, hwire 1 (by decide), ?_⟩
  refine bind_eq_ok_iff.mpr ⟨_, hwire 2 (by decide), ?_⟩
  refine bind_eq_ok_iff.mpr ⟨_, hwire 3 (by decide), ?_⟩
  refine bind_eq_ok_iff.mpr ⟨_, hwire 4 (by decide), ?_⟩
  refine bind_eq_ok_iff.mpr ⟨_, hwire 5 (by decide), ?_⟩
  rfl

/-- So all bits can be added. -/
theorem Assembly.foldlM_addBit (arithmetic : WordArithmetic) (hi : i ≤ n)
    (hsize : carryWire n n + 1 < 2 ^ 32) :
    (wordsBelow i).foldlM (addBit arithmetic (UInt32.ofNat n)) (behind n 0) = .ok (behind n i) := by
  induction i with
  | zero => rfl
  | succ i ih =>
    have hwords : wordsBelow (i + 1) = wordsBelow i ++ [UInt32.ofNat i] := by
      rw [wordsBelow, List.range_succ, List.map_append, List.map_singleton, wordsBelow]
    rw [hwords, List.foldlM_append, ih (Nat.le_of_succ_le hi)]
    change [UInt32.ofNat i].foldlM (addBit arithmetic (UInt32.ofNat n)) (behind n i) = _
    rw [List.foldlM_cons, addBit_behind arithmetic hi hsize]
    rfl

/-- Whether overflows would stop the assembly or wrap, it comes to the adder of that width. -/
theorem assemble_eq (arithmetic : WordArithmetic) (width : Wire) :
    assemble arithmetic width = (ofBits width.toNat).mapError .refused := by
  unfold assemble ofBits
  by_cases hwide : width.toNat > maximumBits
  · rw [if_pos hwide, if_pos hwide]
    rfl
  · rw [if_neg hwide, if_neg hwide]
    have hsize : carryWire width.toNat width.toNat + 1 < 2 ^ 32 := by
      unfold maximumBits at hwide
      unfold carryWire
      omega
    have hinputs : 2 * width.toNat + 1 < 2 ^ 32 := by
      unfold carryWire at hsize
      omega
    have hdouble : arithmetic.mul 2 width = .ok (UInt32.ofNat (2 * width.toNat)) := by
      have hmul := arithmetic.mul_ofNat (j := 2) (k := width.toNat) (by decide) width.toNat_lt
        (by omega)
      rwa [UInt32.ofNat_toNat] at hmul
    have hnext : arithmetic.add (UInt32.ofNat (2 * width.toNat)) 1 =
        .ok (UInt32.ofNat (2 * width.toNat + 1)) := arithmetic.add_ofNat hinputs
    have hbits := Assembly.foldlM_addBit arithmetic (Nat.le_refl width.toNat) hsize
    rw [UInt32.ofNat_toNat] at hbits
    refine bind_eq_ok_iff.mpr ⟨_, hdouble, ?_⟩
    refine bind_eq_ok_iff.mpr ⟨_, hnext, ?_⟩
    refine bind_eq_ok_iff.mpr ⟨_, hbits, ?_⟩
    rw [toNat_wire (by omega)]
    rfl

end Assemblies

/-- What an adder of `n` bits is made of. -/
structure LaidOut (n : Nat) (adder : Circuit) : Prop where
  /-- Every bit has five gates. -/
  gateCount : adder.gateCount = 5 * n
  /-- The inputs are the wires with the first numbers, in order. -/
  inputs : adder.inputs.map UInt32.toNat = List.range (2 * n + 1)
  /-- There is a sum for every bit, and a carry. -/
  outputs : adder.outputs.length = n + 1
  /-- Inputs and gates together drive the wires up to the last one, each once. -/
  driven : (adder.inputs ++ adder.gates.map Gate.output).map UInt32.toNat = List.range (7 * n + 1)
  /-- Every gate reads wires that are driven before it. -/
  gates : GatesFit adder.inputs adder.gates
  /-- So the circuit is valid. -/
  valid : adder.validate = .ok ()

/-- Every adder that is supported is laid out like this. -/
theorem laidOut_circuit {n : Nat} (hn : n ≤ maximumBits) : LaidOut n (circuit n) := by
  have hsize : carryWire n n < 2 ^ 32 := by
    unfold maximumBits at hn
    unfold carryWire
    omega
  constructor
  case gateCount => exact length_flatMap_bitGates n n
  case inputs => exact map_toNat_inputs hsize
  case outputs => simp [circuit]
  case driven => exact map_toNat_driven hsize
  case gates => exact (wellFormed_circuit hsize).gates
  case valid => exact validate_circuit hn

/-- Whatever the width, a 32-bit word: an adder is refused exactly beyond a million bits. Any other has
five gates a bit and drives the wires from `0` to `7n`, each once and before it is read. Put together
bit by bit from sums and products of words it is the same circuit, or refused for the same cause, and
none of these numbers overflows. -/
theorem ofBits_lays_out (width : Wire) :
    (ofBits width.toNat = .error (.tooWide width.toNat 1000000) ↔ 1000000 < width.toNat) ∧
    (width.toNat ≤ 1000000 →
      ∃ adder, ofBits width.toNat = .ok adder ∧ LaidOut width.toNat adder) ∧
    ∀ arithmetic, assemble arithmetic width = (ofBits width.toNat).mapError .refused := by
  refine ⟨?_, ?_, fun arithmetic => assemble_eq arithmetic width⟩
  · by_cases hwide : 1000000 < width.toNat
    · exact iff_of_true (if_pos hwide) hwide
    · have hcircuit : ofBits width.toNat = .ok (circuit width.toNat) := if_neg hwide
      rw [hcircuit]
      exact iff_of_false (by simp) hwide
  · intro hwidth
    exact ⟨circuit width.toNat, if_neg (Nat.not_lt.mpr hwidth), laidOut_circuit hwidth⟩

end Adder

end SeededGarbling
