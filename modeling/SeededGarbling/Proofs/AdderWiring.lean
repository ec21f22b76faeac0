import Mathlib.Algebra.Group.Nat.Defs
import SeededGarbling.Circuit.Adder
import SeededGarbling.Proofs.WellFormed

/-!
# Adders are well-formed

The gates of an adder drive one wire after the other, in the order of their numbers and behind those of
the inputs, and read only wires with smaller numbers. So every wire is driven once, before it is read.
-/

namespace SeededGarbling

/-- The gates drive the wires with the numbers from `first` on, and read wires with smaller numbers
than that of the wire they drive. -/
def Consecutive : (first : Nat) → List Gate → Prop
  | _, [] => True
  | first, gate :: gates =>
    gate.left.toNat < first ∧ gate.right.toNat < first ∧ gate.output.toNat = first ∧
      Consecutive (first + 1) gates

namespace Consecutive

variable {first : Nat} {gates others : List Gate}

/-- Where one list ends the next may begin. -/
theorem append_iff : Consecutive first (gates ++ others) ↔
    Consecutive first gates ∧ Consecutive (first + gates.length) others := by
  induction gates generalizing first with
  | nil => simp [Consecutive]
  | cons gate gates ih =>
    have hlength : first + (gate :: gates).length = first + 1 + gates.length := by
      rw [List.length_cons]
      omega
    rw [hlength]
    simp only [List.cons_append, Consecutive, ih, and_assoc]

/-- The wires that are driven are those with the numbers given out. -/
theorem exists_output_iff (h : Consecutive first gates) (wire : Wire) :
    (∃ gate ∈ gates, gate.output = wire) ↔
      first ≤ wire.toNat ∧ wire.toNat < first + gates.length := by
  induction gates generalizing first with
  | nil =>
    simp
  | cons gate gates ih =>
    obtain ⟨_, _, houtput, hrest⟩ := h
    rw [List.exists_mem_cons_iff, ih hrest, ← UInt32.toNat_inj, houtput, List.length_cons]
    omega

/-- They are driven in the order of their numbers. -/
theorem map_toNat_output (h : Consecutive first gates) :
    (gates.map Gate.output).map UInt32.toNat = List.range' first gates.length := by
  induction gates generalizing first with
  | nil => rfl
  | cons gate gates ih =>
    obtain ⟨_, _, houtput, hrest⟩ := h
    rw [List.map_cons, List.map_cons, houtput, ih hrest, List.length_cons, List.range'_succ]

variable {inputs : List Wire} (hinputs : ∀ wire, wire ∈ inputs ↔ wire.toNat < first)
include hinputs

/-- Behind inputs with all smaller numbers, the wires that hold a value are those with smaller numbers
than the next. -/
theorem held_iff (h : Consecutive first gates) (wire : Wire) :
    Held inputs gates wire ↔ wire.toNat < first + gates.length := by
  rw [Held, hinputs, h.exists_output_iff]
  omega

/-- So every gate fits. -/
theorem gatesFit (h : Consecutive first gates) : GatesFit inputs gates := by
  rintro before gate after rfl
  obtain ⟨hbefore, hleft, hright, houtput, _⟩ := append_iff.mp h
  constructor
  case left => exact (hbefore.held_iff hinputs _).mpr hleft
  case right => exact (hbefore.held_iff hinputs _).mpr hright
  case output =>
    rw [hbefore.held_iff hinputs, houtput]
    exact Nat.lt_irrefl _

end Consecutive

namespace Adder

variable {n : Nat}

/-- A number that is small enough is that of its wire. -/
theorem toNat_wire {k : Nat} (h : k < 2 ^ 32) : (UInt32.ofNat k).toNat = k :=
  UInt32.toNat_ofNat_of_lt' h

/-- Every bit has five gates. -/
theorem length_flatMap_bitGates (n i : Nat) : ((List.range i).flatMap (bitGates n)).length = 5 * i := by
  rw [List.length_flatMap]
  simp [bitGates, Nat.mul_comm]

/-- The gates of a bit drive the five wires behind its carry wire. -/
theorem consecutive_bitGates {i : Nat} (hi : i < n) (hsize : carryWire n n < 2 ^ 32) :
    Consecutive (carryWire n i + 1) (bitGates n i) := by
  have hnext : carryWire n i + 5 ≤ carryWire n n := by
    unfold carryWire
    omega
  have hbefore : n + i < carryWire n i := by
    unfold carryWire
    omega
  unfold bitGates
  simp (disch := omega) only [Consecutive, toNat_wire, true_and, and_true]
  omega

/-- The gates of the bits so far drive the wires behind the inputs, up to a carry wire. -/
theorem consecutive_flatMap_bitGates {i : Nat} (hi : i ≤ n) (hsize : carryWire n n < 2 ^ 32) :
    Consecutive (2 * n + 1) ((List.range i).flatMap (bitGates n)) := by
  induction i with
  | zero => trivial
  | succ i ih =>
    have hfirst : 2 * n + 1 + 5 * i = carryWire n i + 1 := by
      unfold carryWire
      omega
    rw [List.range_succ, List.flatMap_append, List.flatMap_singleton, Consecutive.append_iff,
      length_flatMap_bitGates, hfirst]
    exact ⟨ih (Nat.le_of_succ_le hi), consecutive_bitGates hi hsize⟩

/-- The inputs of an adder are the wires with the first numbers. -/
theorem mem_inputs_iff (hsize : carryWire n n < 2 ^ 32) (wire : Wire) :
    wire ∈ (circuit n).inputs ↔ wire.toNat < 2 * n + 1 := by
  have hsmall : 2 * n + 1 ≤ 2 ^ 32 := by
    unfold carryWire at hsize
    omega
  change wire ∈ (List.range (2 * n + 1)).map UInt32.ofNat ↔ _
  rw [List.mem_map]
  constructor
  · rintro ⟨k, hk, rfl⟩
    rw [List.mem_range] at hk
    rwa [toNat_wire (Nat.lt_of_lt_of_le hk hsmall)]
  · intro h
    exact ⟨wire.toNat, List.mem_range.mpr h, UInt32.ofNat_toNat⟩

/-- They are listed in the order of these numbers. -/
theorem map_toNat_inputs (hsize : carryWire n n < 2 ^ 32) :
    (circuit n).inputs.map UInt32.toNat = List.range (2 * n + 1) := by
  change ((List.range (2 * n + 1)).map UInt32.ofNat).map UInt32.toNat = _
  rw [List.map_map]
  conv => rhs; rw [← List.map_id (List.range (2 * n + 1))]
  apply List.map_congr_left
  intro k hk
  unfold carryWire at hsize
  rw [List.mem_range] at hk
  exact toNat_wire (by omega)

/-- Inputs and gates give every wire a value, one after the other, up to the last carry wire. -/
theorem map_toNat_driven (hsize : carryWire n n < 2 ^ 32) :
    ((circuit n).inputs ++ (circuit n).gates.map Gate.output).map UInt32.toNat =
      List.range (7 * n + 1) := by
  have hgates := consecutive_flatMap_bitGates (Nat.le_refl n) hsize
  have hdriven : ((circuit n).gates.map Gate.output).map UInt32.toNat =
      List.range' (2 * n + 1) (5 * n) := by
    rw [← length_flatMap_bitGates n n]
    exact hgates.map_toNat_output
  have hjoined : List.range' 0 (2 * n + 1) ++ List.range' (0 + (2 * n + 1)) (5 * n) =
      List.range' 0 (2 * n + 1 + 5 * n) := List.range'_append_1
  have hlast : 7 * n + 1 = 2 * n + 1 + 5 * n := by omega
  rw [Nat.zero_add] at hjoined
  rw [List.map_append, map_toNat_inputs hsize, hdriven, hlast, List.range_eq_range', hjoined,
    List.range_eq_range']

/-- An adder whose wires can all be numbered is well-formed. -/
theorem wellFormed_circuit (hsize : carryWire n n < 2 ^ 32) : (circuit n).WellFormed := by
  have hgates := consecutive_flatMap_bitGates (Nat.le_refl n) hsize
  have hinputs := mem_inputs_iff hsize
  constructor
  case inputs =>
    apply List.Nodup.map_on _ List.nodup_range
    intro j hj k hk h
    unfold carryWire at hsize
    rw [List.mem_range] at hj hk
    rwa [← UInt32.toNat_inj, toNat_wire (by omega), toNat_wire (by omega)] at h
  case gates => exact hgates.gatesFit hinputs
  case outputs =>
    have hheld : ∀ k ≤ carryWire n n,
        Held (circuit n).inputs (circuit n).gates (UInt32.ofNat k) := by
      intro k hk
      apply (hgates.held_iff hinputs _).mpr
      rw [length_flatMap_bitGates, toNat_wire (Nat.lt_of_le_of_lt hk hsize)]
      unfold carryWire at hk
      omega
    intro wire hwire
    rcases List.mem_append.mp hwire with hsum | hcarry
    · obtain ⟨i, hi, rfl⟩ := List.mem_map.mp hsum
      rw [List.mem_range] at hi
      apply hheld
      unfold carryWire
      omega
    · rw [List.mem_singleton.mp hcarry]
      exact hheld _ (Nat.le_refl _)

/-- Hence every adder that is supported is valid. -/
theorem validate_circuit (hn : n ≤ maximumBits) : (circuit n).validate = .ok () := by
  apply Circuit.validate_eq_ok_iff.mpr
  apply wellFormed_circuit
  unfold maximumBits at hn
  unfold carryWire
  omega

end Adder

end SeededGarbling
