import Mathlib.Data.List.Induction
import Mathlib.Data.List.Nodup
import SeededGarbling.Circuit.Evaluate
import SeededGarbling.Proofs.Declared

/-!
# Well-formed circuits

A circuit is well-formed when no input is listed twice, every gate reads wires that hold a value
already and drives one that does not, and every output holds a value in the end. Validation decides
this and names the first fault. An evaluation that gives out each wire only once decides it as well:
it goes through for one assignment of bits to the inputs if it does for any other.
-/

namespace SeededGarbling

open Traversal

/-- Keys are distinct where none of them stands before itself. -/
theorem nodup_map_iff_notMem_before {α κ : Type} (key : α → κ) {xs : List α} :
    (xs.map key).Nodup ↔
      ∀ before x after, xs = before ++ x :: after → key x ∉ before.map key := by
  constructor
  · rintro h before x after rfl
    rw [List.map_append, List.map_cons] at h
    intro hx
    exact (List.nodup_append.mp h).2.2 (key x) hx (key x) List.mem_cons_self rfl
  · intro h
    induction xs using List.reverseRecOn with
    | nil => exact List.nodup_nil
    | append_singleton xs x ih =>
      rw [List.map_append, List.map_singleton, ← List.concat_eq_append, List.nodup_concat]
      refine ⟨h xs x [] rfl, ih ?_⟩
      intro before y after hsplit
      exact h before y (after ++ [x]) (by rw [hsplit, List.append_assoc, List.cons_append])

/-- A wire holds a value behind some gates: it is an input, or one of them drives it. -/
def Held (inputs : List Wire) (gates : List Gate) (wire : Wire) : Prop :=
  wire ∈ inputs ∨ ∃ gate ∈ gates, gate.output = wire

/-- A gate can stand behind others. -/
structure Gate.Fits (inputs : List Wire) (before : List Gate) (gate : Gate) : Prop where
  /-- The first operand holds a value. -/
  left : Held inputs before gate.left
  /-- So does the second. -/
  right : Held inputs before gate.right
  /-- The wire that the gate drives holds none. -/
  output : ¬Held inputs before gate.output

/-- Every gate can stand where it stands. -/
def GatesFit (inputs : List Wire) (gates : List Gate) : Prop :=
  ∀ before gate after, gates = before ++ gate :: after → gate.Fits inputs before

/-- Every wire has one source, which comes before it is read. -/
structure Circuit.WellFormed (circuit : Circuit) : Prop where
  /-- No input is listed twice. -/
  inputs : circuit.inputs.Nodup
  /-- Every gate reads wires with a value and drives one without. -/
  gates : GatesFit circuit.inputs circuit.gates
  /-- Every output holds a value. -/
  outputs : ∀ wire ∈ circuit.outputs, Held circuit.inputs circuit.gates wire

/-- What is the matter with a gate behind others, in the order of the checks. Its number is the number
of the gates before it. -/
inductive Gate.Misfit (inputs : List Wire) (before : List Gate) (gate : Gate) :
    CircuitError → Prop where
  /-- The first operand holds no value. -/
  | left (h : ¬Held inputs before gate.left) :
    Misfit inputs before gate (.danglingWire before.length gate.left)
  /-- The second operand holds none. -/
  | right (hleft : Held inputs before gate.left) (h : ¬Held inputs before gate.right) :
    Misfit inputs before gate (.danglingWire before.length gate.right)
  /-- The wire that the gate drives holds a value. -/
  | output (hleft : Held inputs before gate.left) (hright : Held inputs before gate.right)
    (h : Held inputs before gate.output) :
    Misfit inputs before gate (.wireRedefined before.length gate.output)

/-- The first fault of a circuit: everything before it is in order. -/
inductive Circuit.FirstFault (circuit : Circuit) : CircuitError → Prop where
  /-- An input equals an earlier one. -/
  | input {before after : List Wire} {wire : Wire}
    (hsplit : circuit.inputs = before ++ wire :: after) (hbefore : before.Nodup)
    (h : wire ∈ before) : FirstFault circuit (.inputRepeated wire)
  /-- A gate cannot stand behind those before it. -/
  | gate {before after : List Gate} {gate : Gate} {fault : CircuitError}
    (hinputs : circuit.inputs.Nodup) (hsplit : circuit.gates = before ++ gate :: after)
    (hbefore : GatesFit circuit.inputs before) (h : gate.Misfit circuit.inputs before fault) :
    FirstFault circuit fault
  /-- An output holds no value. -/
  | output {before after : List Wire} {wire : Wire} (hinputs : circuit.inputs.Nodup)
    (hgates : GatesFit circuit.inputs circuit.gates)
    (hsplit : circuit.outputs = before ++ wire :: after)
    (hbefore : ∀ earlier ∈ before, Held circuit.inputs circuit.gates earlier)
    (h : ¬Held circuit.inputs circuit.gates wire) : FirstFault circuit (.undefinedOutput wire)

namespace DefinedWires

variable {defined after : DefinedWires} {inputs : List Wire} {gates : List Gate}

/-- An input is refused if it was declared before. -/
theorem declareInput_eq_error_iff {wire : Wire} {fault : CircuitError} :
    declareInput defined wire = .error fault ↔ wire ∈ defined ∧ fault = .inputRepeated wire := by
  unfold declareInput
  by_cases h : wire ∈ defined
  · simp only [Std.HashSet.mem_iff_contains.mp h, ite_true, Except.error.injEq, h, true_and]
    exact eq_comm
  · simp [h]

/-- Inputs can be declared unless one of them is listed twice. -/
theorem exists_declareInputs_iff :
    (∃ after, inputs.foldlM declareInput ∅ = .ok after) ↔ inputs.Nodup := by
  rw [← List.map_id inputs, nodup_map_iff_notMem_before, List.map_id]
  apply exists_foldlM_eq_ok_iff
  intro before wire after reached _ hreached
  have hmem := mem_of_declareInputs hreached wire
  simp [declareInput_eq_ok_iff, hmem]

/-- A gate can be declared exactly where it fits. -/
theorem exists_declareGate_iff (hdefined : ∀ wire, wire ∈ defined ↔ Held inputs gates wire)
    {gate : Gate} {index : Nat} :
    (∃ after, declareGate defined (gate, index) = .ok after) ↔ gate.Fits inputs gates := by
  simp only [declareGate_eq_ok_iff, hdefined]
  constructor
  · rintro ⟨_, hleft, hright, houtput, _⟩
    exact ⟨hleft, hright, houtput⟩
  · rintro ⟨hleft, hright, houtput⟩
    exact ⟨_, hleft, hright, houtput, rfl⟩

/-- Where it does not, it is refused for the first thing that is the matter with it. -/
theorem declareGate_eq_error_iff (hdefined : ∀ wire, wire ∈ defined ↔ Held inputs gates wire)
    {gate : Gate} {fault : CircuitError} :
    declareGate defined (gate, gates.length) = .error fault ↔ gate.Misfit inputs gates fault := by
  constructor
  · intro h
    simp only [declareGate] at h
    split at h
    · next hleft =>
      cases h
      exact .left (by simpa [hdefined] using hleft)
    · next hleft =>
      split at h
      · next hright =>
        cases h
        exact .right (by simpa [hdefined] using hleft) (by simpa [hdefined] using hright)
      · next hright =>
        split at h
        · next houtput =>
          cases h
          exact .output (by simpa [hdefined] using hleft) (by simpa [hdefined] using hright)
            (by simpa [hdefined] using houtput)
        · cases h
  · intro h
    cases h with
    | left h => simp [declareGate, hdefined, h]
    | right hleft h => simp [declareGate, hdefined, hleft, h]
    | output hleft hright h => simp [declareGate, hdefined, hleft, hright, h]

/-- Behind the inputs, the wires declared are these. -/
theorem mem_of_declareInputs_empty (h : inputs.foldlM declareInput ∅ = .ok after) (wire : Wire) :
    wire ∈ after ↔ wire ∈ inputs := by
  rw [mem_of_declareInputs h]
  simp

/-- An input is refused if it equals one of the inputs before it, which differ from each other. -/
theorem declareInputs_eq_error_iff {fault : CircuitError} :
    inputs.foldlM declareInput ∅ = .error fault ↔
      ∃ before wire after, inputs = before ++ wire :: after ∧ before.Nodup ∧ wire ∈ before ∧
        fault = .inputRepeated wire := by
  rw [foldlM_eq_error_iff]
  constructor
  · rintro ⟨before, wire, after, reached, hsplit, hbefore, hfault⟩
    obtain ⟨hwire, rfl⟩ := declareInput_eq_error_iff.mp hfault
    rw [mem_of_declareInputs_empty hbefore] at hwire
    exact ⟨before, wire, after, hsplit, exists_declareInputs_iff.mp ⟨reached, hbefore⟩, hwire, rfl⟩
  · rintro ⟨before, wire, after, hsplit, hbefore, hwire, rfl⟩
    obtain ⟨reached, hreached⟩ := exists_declareInputs_iff.mpr hbefore
    rw [← mem_of_declareInputs_empty hreached] at hwire
    exact ⟨before, wire, after, reached, hsplit, hreached,
      declareInput_eq_error_iff.mpr ⟨hwire, rfl⟩⟩

section Gates

variable (hinputs : ∀ wire, wire ∈ defined ↔ wire ∈ inputs)
include hinputs

/-- Behind the inputs and some gates, the wires declared are those that hold a value. -/
theorem mem_iff_held {base : Nat} (h : (gates.zipIdx base).foldlM declareGate defined = .ok after)
    (wire : Wire) : wire ∈ after ↔ Held inputs gates wire := by
  rw [mem_of_declareGates h, hinputs]
  rfl

/-- Gates can be declared exactly where each of them fits. -/
theorem exists_declareGates_iff :
    (∃ after, gates.zipIdx.foldlM declareGate defined = .ok after) ↔ GatesFit inputs gates := by
  have hfold : (∃ after, gates.zipIdx.foldlM declareGate defined = .ok after) ↔
      ∀ before indexed after, gates.zipIdx = before ++ indexed :: after →
        indexed.1.Fits inputs (before.map Prod.fst) := by
    apply exists_foldlM_eq_ok_iff
    rintro before ⟨gate, index⟩ after reached hsplit hreached
    obtain ⟨earlier, rest, _, rfl, _⟩ := List.zipIdx_eq_append_iff.mp hsplit
    rw [List.zipIdx_map_fst]
    exact exists_declareGate_iff (mem_iff_held hinputs hreached)
  rw [hfold]
  constructor
  · rintro h before gate after rfl
    have hgate := h before.zipIdx (gate, before.length) (after.zipIdx (before.length + 1))
      (by rw [List.zipIdx_append, List.zipIdx_cons, Nat.zero_add])
    rwa [List.zipIdx_map_fst] at hgate
  · intro h before indexed after hsplit
    obtain ⟨earlier, rest, rfl, rfl, hrest⟩ := List.zipIdx_eq_append_iff.mp hsplit
    obtain ⟨gate, later, rfl, rfl, _⟩ := List.zipIdx_eq_cons_iff.mp hrest.symm
    rw [List.zipIdx_map_fst]
    exact h earlier gate later rfl

/-- Otherwise the first gate that does not fit is refused. -/
theorem declareGates_eq_error_iff {fault : CircuitError} :
    gates.zipIdx.foldlM declareGate defined = .error fault ↔
      ∃ before gate after, gates = before ++ gate :: after ∧ GatesFit inputs before ∧
        gate.Misfit inputs before fault := by
  rw [foldlM_eq_error_iff]
  constructor
  · rintro ⟨_, _, _, reached, hsplit, hbefore, hfault⟩
    obtain ⟨before, rest, rfl, rfl, hrest⟩ := List.zipIdx_eq_append_iff.mp hsplit
    obtain ⟨gate, after, rfl, rfl, rfl⟩ := List.zipIdx_eq_cons_iff.mp hrest.symm
    rw [Nat.zero_add, declareGate_eq_error_iff (mem_iff_held hinputs hbefore)] at hfault
    exact ⟨before, gate, after, rfl, (exists_declareGates_iff hinputs).mp ⟨reached, hbefore⟩, hfault⟩
  · rintro ⟨before, gate, after, rfl, hbefore, hfault⟩
    obtain ⟨reached, hreached⟩ := (exists_declareGates_iff hinputs).mpr hbefore
    refine ⟨before.zipIdx, (gate, before.length), after.zipIdx (before.length + 1), reached, ?_,
      hreached, (declareGate_eq_error_iff (mem_iff_held hinputs hreached)).mpr hfault⟩
    rw [List.zipIdx_append, List.zipIdx_cons, Nat.zero_add]

end Gates

/-- The last check of a validation: every output is declared. -/
def checkOutputs (defined : DefinedWires) (outputs : List Wire) : Except CircuitError Unit :=
  match outputs.find? fun wire => !defined.contains wire with
  | some wire => .error (.undefinedOutput wire)
  | none => .ok ()

/-- It passes where all outputs are declared. -/
theorem checkOutputs_eq_ok_iff {outputs : List Wire} :
    checkOutputs defined outputs = .ok () ↔ ∀ wire ∈ outputs, wire ∈ defined := by
  unfold checkOutputs
  split
  · next wire hfind =>
    obtain ⟨hwire, before, after, rfl, _⟩ := List.find?_eq_some_iff_append.mp hfind
    simp only [reduceCtorEq, false_iff]
    intro hall
    simp [hall wire] at hwire
  · next hfind => simpa using hfind

/-- Otherwise it names the first output that is not. -/
theorem checkOutputs_eq_error_iff {outputs : List Wire} {fault : CircuitError} :
    checkOutputs defined outputs = .error fault ↔
      ∃ before wire after, outputs = before ++ wire :: after ∧
        (∀ earlier ∈ before, earlier ∈ defined) ∧ wire ∉ defined ∧
        fault = .undefinedOutput wire := by
  unfold checkOutputs
  constructor
  · intro h
    split at h
    · next wire hfind =>
      cases h
      obtain ⟨hwire, before, after, hsplit, hbefore⟩ := List.find?_eq_some_iff_append.mp hfind
      exact ⟨before, wire, after, hsplit, by simpa using hbefore, by simpa using hwire, rfl⟩
    · cases h
  · rintro ⟨before, wire, after, hsplit, hbefore, hwire, rfl⟩
    have hfind : (outputs.find? fun wire => !defined.contains wire) = some wire := by
      rw [List.find?_eq_some_iff_append]
      exact ⟨by simpa using hwire, before, after, hsplit, by simpa using hbefore⟩
    rw [hfind]

end DefinedWires

/-- Why an evaluation stops that gives every wire its value once. -/
inductive WireFault where
  /-- A wire without a value is read. -/
  | unassigned (wire : Wire)
  /-- A wire with a value is given one. -/
  | reassigned (wire : Wire)
  deriving DecidableEq, Repr

/-- The value of a wire that was given one. -/
def readWire (values : WireMap Bool) (wire : Wire) : Except WireFault Bool :=
  match values[wire]? with
  | some value => .ok value
  | none => .error (.unassigned wire)

/-- Gives a value to a wire that has none. -/
def assignWire (values : WireMap Bool) (entry : Wire × Bool) : Except WireFault (WireMap Bool) :=
  if entry.1 ∈ values then .error (.reassigned entry.1) else .ok (values.insert entry.1 entry.2)

/-- Gives the wire of a gate its value. -/
def Gate.evaluateOnce (values : WireMap Bool) (gate : Gate) : Except WireFault (WireMap Bool) := do
  let a ← readWire values gate.left
  let b ← readWire values gate.right
  assignWire values (gate.output, gate.table.eval a b)

/-- The inputs of a circuit, each with its bit. -/
def Circuit.entries (circuit : Circuit) (bits : Vector Bool circuit.inputs.length) :
    List (Wire × Bool) :=
  circuit.inputs.zip bits.toList

/-- Gives input after input its bit, and then the wire of gate after gate its value. -/
def Circuit.evaluateOnce (circuit : Circuit) (bits : Vector Bool circuit.inputs.length) :
    Except WireFault (WireMap Bool) := do
  let values ← (circuit.entries bits).foldlM assignWire ∅
  circuit.gates.foldlM Gate.evaluateOnce values

section Once

variable {values after : WireMap Bool} {inputs : List Wire} {gates : List Gate}

/-- Reading succeeds where there is a value. -/
theorem readWire_eq_ok_iff {wire : Wire} {value : Bool} :
    readWire values wire = .ok value ↔ values[wire]? = some value := by
  unfold readWire
  cases values[wire]? with
  | none => simp
  | some held => simp

/-- A wire can be given a value unless it has one. -/
theorem assignWire_eq_ok_iff {entry : Wire × Bool} :
    assignWire values entry = .ok after ↔
      entry.1 ∉ values ∧ after = values.insert entry.1 entry.2 := by
  unfold assignWire
  by_cases h : entry.1 ∈ values
  · simp [h]
  · simp [h, eq_comm]

/-- A gate can be evaluated once where its operands have values and its own wire has none. -/
theorem Gate.evaluateOnce_eq_ok_iff {gate : Gate} :
    gate.evaluateOnce values = .ok after ↔
      ∃ a b, values[gate.left]? = some a ∧ values[gate.right]? = some b ∧ gate.output ∉ values ∧
        after = values.insert gate.output (gate.table.eval a b) := by
  unfold evaluateOnce
  simp only [bind_eq_ok_iff, readWire_eq_ok_iff, assignWire_eq_ok_iff]
  constructor
  · rintro ⟨a, ha, b, hb, houtput, hafter⟩
    exact ⟨a, b, ha, hb, houtput, hafter⟩
  · rintro ⟨a, b, ha, hb, houtput, hafter⟩
    exact ⟨a, ha, b, hb, houtput, hafter⟩

/-- Values that were given once are those of a listing. -/
theorem eq_insertMany_of_assignWires {entries : List (Wire × Bool)}
    (h : entries.foldlM assignWire values = .ok after) : after = values.insertMany entries := by
  induction entries generalizing values with
  | nil =>
    cases h
    exact Std.ExtTreeMap.insertMany_nil.symm
  | cons entry entries ih =>
    rw [List.foldlM_cons] at h
    obtain ⟨next, hnext, hrest⟩ := bind_eq_ok_iff.mp h
    obtain ⟨_, rfl⟩ := assignWire_eq_ok_iff.mp hnext
    rw [ih hrest, Std.ExtTreeMap.insertMany_cons]

/-- Inputs can be given their bits unless one of them is listed twice. -/
theorem exists_assignWires_iff {entries : List (Wire × Bool)} :
    (∃ after, entries.foldlM assignWire ∅ = .ok after) ↔ (entries.map Prod.fst).Nodup := by
  rw [nodup_map_iff_notMem_before]
  apply exists_foldlM_eq_ok_iff
  intro before entry later reached _ hreached
  rw [eq_insertMany_of_assignWires hreached]
  simp [assignWire_eq_ok_iff]

/-- Evaluating gates gives values to exactly the wires that they drive. -/
theorem mem_of_evaluateOnce (h : gates.foldlM Gate.evaluateOnce values = .ok after) (wire : Wire) :
    wire ∈ after ↔ wire ∈ values ∨ ∃ gate ∈ gates, gate.output = wire := by
  induction gates generalizing values with
  | nil =>
    cases h
    simp
  | cons gate gates ih =>
    rw [List.foldlM_cons] at h
    obtain ⟨next, hnext, hrest⟩ := bind_eq_ok_iff.mp h
    obtain ⟨a, b, _, _, _, rfl⟩ := Gate.evaluateOnce_eq_ok_iff.mp hnext
    rw [ih hrest, Std.ExtTreeMap.mem_insert, Std.LawfulEqCmp.compare_eq_iff_eq]
    simp only [List.mem_cons, exists_eq_or_imp]
    rw [or_assoc, or_left_comm]

/-- Gates can be evaluated once exactly where each of them fits. -/
theorem exists_evaluateOnce_iff (hvalues : ∀ wire, wire ∈ values ↔ wire ∈ inputs) :
    (∃ after, gates.foldlM Gate.evaluateOnce values = .ok after) ↔ GatesFit inputs gates := by
  apply exists_foldlM_eq_ok_iff
  intro before gate later reached _ hreached
  have hheld : ∀ wire, wire ∈ reached ↔ Held inputs before wire := by
    intro wire
    rw [mem_of_evaluateOnce hreached, hvalues]
    rfl
  have hvalue : ∀ wire, (∃ value, reached[wire]? = some value) ↔ Held inputs before wire := by
    intro wire
    rw [← hheld, Std.ExtTreeMap.mem_iff_isSome_getElem?, Option.isSome_iff_exists]
  simp only [Gate.evaluateOnce_eq_ok_iff]
  constructor
  · rintro ⟨_, a, b, ha, hb, houtput, _⟩
    rw [hheld] at houtput
    exact ⟨(hvalue _).mp ⟨a, ha⟩, (hvalue _).mp ⟨b, hb⟩, houtput⟩
  · rintro ⟨hleft, hright, houtput⟩
    obtain ⟨a, ha⟩ := (hvalue _).mpr hleft
    obtain ⟨b, hb⟩ := (hvalue _).mpr hright
    rw [← hheld] at houtput
    exact ⟨_, a, b, ha, hb, houtput, rfl⟩

/-- Nothing else is computed than without that care. -/
theorem evaluate_of_evaluateOnce (h : gates.foldlM Gate.evaluateOnce values = .ok after) :
    gates.foldlM Gate.evaluate values = some after := by
  induction gates generalizing values with
  | nil =>
    cases h
    rfl
  | cons gate gates ih =>
    rw [List.foldlM_cons] at h
    obtain ⟨next, hnext, hrest⟩ := bind_eq_ok_iff.mp h
    obtain ⟨a, b, ha, hb, _, rfl⟩ := Gate.evaluateOnce_eq_ok_iff.mp hnext
    rw [List.foldlM_cons, Gate.evaluate, ha, hb]
    exact ih hrest

end Once

namespace Circuit

variable {circuit : Circuit}

/-- Validation declares the inputs, then the gates, and looks at the outputs last. -/
theorem validate_eq_bind (circuit : Circuit) :
    circuit.validate = circuit.inputs.foldlM DefinedWires.declareInput ∅ >>= fun inputs =>
      circuit.gates.zipIdx.foldlM DefinedWires.declareGate inputs >>= fun all =>
        all.checkOutputs circuit.outputs :=
  rfl

/-- Validation accepts exactly the well-formed circuits. -/
theorem validate_eq_ok_iff : circuit.validate = .ok () ↔ circuit.WellFormed := by
  simp only [validate_eq_bind, bind_eq_ok_iff]
  constructor
  · rintro ⟨inputs, hinputs, all, hall, houtputs⟩
    have hmem := DefinedWires.mem_of_declareInputs_empty hinputs
    refine ⟨DefinedWires.exists_declareInputs_iff.mp ⟨inputs, hinputs⟩,
      (DefinedWires.exists_declareGates_iff hmem).mp ⟨all, hall⟩, ?_⟩
    intro wire hwire
    rw [← DefinedWires.mem_iff_held hmem hall]
    exact DefinedWires.checkOutputs_eq_ok_iff.mp houtputs wire hwire
  · rintro ⟨hinputs, hgates, houtputs⟩
    obtain ⟨inputs, hinputs⟩ := DefinedWires.exists_declareInputs_iff.mpr hinputs
    have hmem := DefinedWires.mem_of_declareInputs_empty hinputs
    obtain ⟨all, hall⟩ := (DefinedWires.exists_declareGates_iff hmem).mpr hgates
    refine ⟨inputs, hinputs, all, hall, DefinedWires.checkOutputs_eq_ok_iff.mpr ?_⟩
    intro wire hwire
    rw [DefinedWires.mem_iff_held hmem hall]
    exact houtputs wire hwire

/-- It refuses the others for the first fault. -/
theorem validate_eq_error_iff {fault : CircuitError} :
    circuit.validate = .error fault ↔ circuit.FirstFault fault := by
  simp only [validate_eq_bind, bind_eq_error_iff]
  constructor
  · rintro (hinputs | ⟨inputs, hinputs, hgates | ⟨all, hall, houtputs⟩⟩)
    · obtain ⟨before, wire, after, hsplit, hbefore, hwire, rfl⟩ :=
        DefinedWires.declareInputs_eq_error_iff.mp hinputs
      exact .input hsplit hbefore hwire
    · have hmem := DefinedWires.mem_of_declareInputs_empty hinputs
      obtain ⟨before, gate, after, hsplit, hbefore, hgate⟩ :=
        (DefinedWires.declareGates_eq_error_iff hmem).mp hgates
      exact .gate (DefinedWires.exists_declareInputs_iff.mp ⟨inputs, hinputs⟩) hsplit hbefore hgate
    · have hmem := DefinedWires.mem_of_declareInputs_empty hinputs
      have hheld := DefinedWires.mem_iff_held hmem hall
      obtain ⟨before, wire, after, hsplit, hbefore, hwire, rfl⟩ :=
        DefinedWires.checkOutputs_eq_error_iff.mp houtputs
      refine .output (DefinedWires.exists_declareInputs_iff.mp ⟨inputs, hinputs⟩)
        ((DefinedWires.exists_declareGates_iff hmem).mp ⟨all, hall⟩) hsplit ?_ ?_
      · intro earlier hearlier
        exact (hheld earlier).mp (hbefore earlier hearlier)
      · rwa [← hheld]
  · intro h
    cases h with
    | input hsplit hbefore hwire =>
      exact Or.inl (DefinedWires.declareInputs_eq_error_iff.mpr
        ⟨_, _, _, hsplit, hbefore, hwire, rfl⟩)
    | gate hinputs hsplit hbefore hgate =>
      obtain ⟨inputs, hinputs⟩ := DefinedWires.exists_declareInputs_iff.mpr hinputs
      have hmem := DefinedWires.mem_of_declareInputs_empty hinputs
      exact Or.inr ⟨inputs, hinputs, Or.inl ((DefinedWires.declareGates_eq_error_iff hmem).mpr
        ⟨_, _, _, hsplit, hbefore, hgate⟩)⟩
    | output hinputs hgates hsplit hbefore hwire =>
      obtain ⟨inputs, hinputs⟩ := DefinedWires.exists_declareInputs_iff.mpr hinputs
      have hmem := DefinedWires.mem_of_declareInputs_empty hinputs
      obtain ⟨all, hall⟩ := (DefinedWires.exists_declareGates_iff hmem).mpr hgates
      have hheld := DefinedWires.mem_iff_held hmem hall
      refine Or.inr ⟨inputs, hinputs, Or.inr ⟨all, hall,
        DefinedWires.checkOutputs_eq_error_iff.mpr ⟨_, _, _, hsplit, ?_, ?_, rfl⟩⟩⟩
      · intro earlier hearlier
        exact (hheld earlier).mpr (hbefore earlier hearlier)
      · rwa [hheld]

/-- Every input has a bit. -/
theorem map_fst_entries (bits : Vector Bool circuit.inputs.length) :
    (circuit.entries bits).map Prod.fst = circuit.inputs := by
  exact List.map_fst_zip (Vector.length_toList ▸ Nat.le_refl _)

/-- A circuit is well-formed exactly if, from any assignment to the inputs, it can be evaluated so that
every wire is given its value once and before it is read, and all outputs are given one. -/
theorem wellFormed_iff_evaluateOnce (bits : Vector Bool circuit.inputs.length) :
    circuit.WellFormed ↔ ∃ values, circuit.evaluateOnce bits = .ok values ∧
      circuit.evaluate (.ofList (circuit.entries bits)) = some values ∧
      ∀ wire ∈ circuit.outputs, wire ∈ values := by
  have hgiven : ∀ given, (circuit.entries bits).foldlM assignWire ∅ = .ok given →
      given = .ofList (circuit.entries bits) ∧ ∀ wire, wire ∈ given ↔ wire ∈ circuit.inputs := by
    intro given h
    have heq := eq_insertMany_of_assignWires h
    rw [← Std.ExtTreeMap.ofList_eq_insertMany_empty] at heq
    refine ⟨heq, ?_⟩
    intro wire
    rw [heq, Std.ExtTreeMap.mem_ofList, map_fst_entries, List.contains_iff_mem]
  unfold evaluateOnce
  simp only [bind_eq_ok_iff]
  constructor
  · rintro ⟨hinputs, hgates, houtputs⟩
    rw [← map_fst_entries bits, ← exists_assignWires_iff] at hinputs
    obtain ⟨given, hrun⟩ := hinputs
    obtain ⟨heq, hmem⟩ := hgiven given hrun
    obtain ⟨values, hvalues⟩ := (exists_evaluateOnce_iff hmem).mpr hgates
    refine ⟨values, ⟨given, hrun, hvalues⟩, ?_, ?_⟩
    · rw [evaluate, ← heq, evaluate_of_evaluateOnce hvalues]
    · intro wire hwire
      rw [mem_of_evaluateOnce hvalues, hmem]
      exact houtputs wire hwire
  · rintro ⟨values, ⟨given, hrun, hvalues⟩, _, houtputs⟩
    obtain ⟨_, hmem⟩ := hgiven given hrun
    refine ⟨?_, (exists_evaluateOnce_iff hmem).mp ⟨values, hvalues⟩, ?_⟩
    · rw [← map_fst_entries bits, ← exists_assignWires_iff]
      exact ⟨given, hrun⟩
    · intro wire hwire
      have hvalue := houtputs wire hwire
      rwa [mem_of_evaluateOnce hvalues, hmem] at hvalue

/-- Whatever the circuit: it is valid exactly if it is well-formed, and just as well if it can be
evaluated from an assignment of bits to its inputs, no matter which, so that every wire is given its
value once and before it is read and every output has a value in the end. A circuit that is not valid is
refused for its first fault. -/
theorem validate_decides (circuit : Circuit) :
    (circuit.validate = .ok () ↔ circuit.WellFormed) ∧
    (∀ bits : Vector Bool circuit.inputs.length,
      circuit.validate = .ok () ↔ ∃ values, circuit.evaluateOnce bits = .ok values ∧
        circuit.evaluate (.ofList (circuit.entries bits)) = some values ∧
        ∀ wire ∈ circuit.outputs, wire ∈ values) ∧
    ∀ fault, circuit.validate = .error fault ↔ circuit.FirstFault fault := by
  refine ⟨validate_eq_ok_iff, ?_, fun _ => validate_eq_error_iff⟩
  intro bits
  rw [validate_eq_ok_iff]
  exact wellFormed_iff_evaluateOnce bits

end Circuit

end SeededGarbling
