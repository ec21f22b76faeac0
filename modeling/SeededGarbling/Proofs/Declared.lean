import SeededGarbling.Circuit.Validate
import SeededGarbling.Proofs.Traversal

/-!
# Which wires are declared

Validation walks over a circuit with the set of wires that hold a value. Where it succeeds, every
gate finds its operands in the set and its own wire outside, and at the end the set holds exactly
the inputs and the wires that gates drive.
-/

namespace SeededGarbling

open Traversal

namespace DefinedWires

variable {defined after : DefinedWires}

/-- An input is declared unless it was before. -/
theorem declareInput_eq_ok_iff {wire : Wire} :
    declareInput defined wire = .ok after ↔ wire ∉ defined ∧ after = defined.insert wire := by
  unfold declareInput
  by_cases h : wire ∈ defined
  · simp [h]
  · simp only [Std.HashSet.contains_eq_false_iff_not_mem.mpr h, Bool.false_eq_true, ite_false,
      Except.ok.injEq, h, not_false_eq_true, true_and]
    exact eq_comm

/-- A gate is declared exactly when its operands hold values and its own wire holds none. -/
theorem declareGate_eq_ok_iff {gate : Gate} {index : Nat} :
    declareGate defined (gate, index) = .ok after ↔
      gate.left ∈ defined ∧ gate.right ∈ defined ∧ gate.output ∉ defined ∧
        after = defined.insert gate.output := by
  unfold declareGate
  by_cases hleft : gate.left ∈ defined
  · by_cases hright : gate.right ∈ defined
    · by_cases houtput : gate.output ∈ defined
      · simp [hleft, hright, houtput]
      · simp only [Std.HashSet.mem_iff_contains.mp hleft, Std.HashSet.mem_iff_contains.mp hright,
          Std.HashSet.contains_eq_false_iff_not_mem.mpr houtput, Bool.not_true, Bool.false_eq_true,
          ite_false, Except.ok.injEq, hleft, hright, houtput, not_false_eq_true, true_and]
        exact eq_comm
    · simp [hleft, hright]
  · simp [hleft]

/-- Declaring inputs adds exactly these. -/
theorem mem_of_declareInputs {inputs : List Wire}
    (h : inputs.foldlM declareInput defined = .ok after) (wire : Wire) :
    wire ∈ after ↔ wire ∈ defined ∨ wire ∈ inputs := by
  induction inputs generalizing defined with
  | nil =>
    cases h
    simp
  | cons input inputs ih =>
    rw [List.foldlM_cons] at h
    obtain ⟨next, hnext, hrest⟩ := bind_eq_ok_iff.mp h
    obtain ⟨_, rfl⟩ := declareInput_eq_ok_iff.mp hnext
    rw [ih hrest, Std.HashSet.mem_insert, beq_iff_eq, List.mem_cons, or_assoc, or_left_comm,
      eq_comm (a := input)]

/-- Declaring gates adds exactly the wires that they drive. -/
theorem mem_of_declareGates {gates : List Gate} {base : Nat}
    (h : (gates.zipIdx base).foldlM declareGate defined = .ok after) (wire : Wire) :
    wire ∈ after ↔ wire ∈ defined ∨ ∃ gate ∈ gates, gate.output = wire := by
  induction gates generalizing defined base with
  | nil =>
    cases h
    simp
  | cons gate gates ih =>
    rw [List.zipIdx_cons, List.foldlM_cons] at h
    obtain ⟨next, hnext, hrest⟩ := bind_eq_ok_iff.mp h
    obtain ⟨_, _, _, rfl⟩ := declareGate_eq_ok_iff.mp hnext
    simp only [ih hrest, Std.HashSet.mem_insert, beq_iff_eq, List.mem_cons, exists_eq_or_imp]
    rw [or_assoc, or_left_comm]

end DefinedWires

/-- What a valid circuit declares: its inputs, then gate after gate, and with these its outputs. -/
theorem Circuit.declared_of_validate {circuit : Circuit} (h : circuit.validate = .ok ()) :
    ∃ inputs all : DefinedWires, (∀ wire, wire ∈ inputs ↔ wire ∈ circuit.inputs) ∧
      circuit.gates.zipIdx.foldlM DefinedWires.declareGate inputs = .ok all ∧
      ∀ wire ∈ circuit.outputs, wire ∈ all := by
  unfold validate at h
  obtain ⟨inputs, hinputs, hgates⟩ := bind_eq_ok_iff.mp h
  obtain ⟨all, hall, houtputs⟩ := bind_eq_ok_iff.mp hgates
  refine ⟨inputs, all, ?_, hall, ?_⟩
  · intro wire
    rw [DefinedWires.mem_of_declareInputs hinputs]
    simp
  · intro wire hwire
    split at houtputs
    · cases houtputs
    · rename_i hnone
      have hdefined := List.find?_eq_none.mp hnone wire hwire
      simpa using hdefined

/-- A circuit whose second gate reads one wire twice, with an input and a repeated wire among its
outputs. Only the low four bits of the first truth table count. -/
def Circuit.negatedSum : Circuit where
  gates := [⟨0, 1, 2, ⟨0xf6⟩⟩, ⟨2, 2, 3, .nor⟩]
  inputs := [0, 1]
  outputs := [3, 0, 3]

/-- It declares its four wires one after the other. -/
theorem Circuit.validate_negatedSum : negatedSum.validate = .ok () := by
  simp [negatedSum, validate, DefinedWires.declareInput, DefinedWires.declareGate, bind, Except.bind,
    pure, Except.pure]

end SeededGarbling
