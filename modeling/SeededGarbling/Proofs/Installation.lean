import SeededGarbling.Keystream.Counting
import SeededGarbling.Proofs.Declared
import SeededGarbling.Proofs.Scratch

/-!
# Garbling in place

Whoever holds a garbled circuit garbles into it. Four things are asked first, one after the other: as
many gates as there are slots, the same wires, a circuit in order, and a seed that the generator takes.
The first that is amiss is the cause of failure, and by then nothing was written. Behind the last one
nothing can fail any more: every label is derived, and the permutation behind the pads is given ranges
that fit and a round function that answers.
-/

namespace SeededGarbling

/-- A run beside the garbled circuit takes the place of generator and hasher. -/
theorem Bench.run_onWorkspace {γ α : Type} (run : Run γ α) (bench : Bench γ) :
    (onWorkspace run).run bench =
      ((run.run bench.workspace).1, { bench with workspace := (run.run bench.workspace).2 }) := rfl

section InPlace

variable {γ : Type} [Generator γ] {algorithm : PrfAlgorithm} {circuit : Circuit} {seed : Bytes}
  {held garbled : GarbledCircuit} {values : CreationValues} {workspace after : Workspace γ}
  {cause : GarbleError}

/-- Where garbling fails, the garbled circuit stays as it is. -/
theorem run_garbleInPlace_of_error
    (h : (held.garble algorithm circuit seed).run workspace = (.error cause, after)) :
    (garbleInPlace algorithm circuit seed).run ⟨held, workspace⟩ =
      (.error cause, ⟨held, after⟩) := by
  have hget : (get : ExceptT GarbleError (StateM (Bench γ)) (Bench γ)).run ⟨held, workspace⟩ =
      (.ok ⟨held, workspace⟩, ⟨held, workspace⟩) := rfl
  have hrun := Bench.run_onWorkspace (held.garble algorithm circuit seed) ⟨held, workspace⟩
  rw [h] at hrun
  unfold garbleInPlace
  rw [run_bind_of_ok hget]
  exact run_bind_of_error hrun

/-- Where it succeeds, the result takes its place. -/
theorem run_garbleInPlace_of_ok
    (h : (held.garble algorithm circuit seed).run workspace = (.ok (garbled, values), after)) :
    (garbleInPlace algorithm circuit seed).run ⟨held, workspace⟩ =
      (.ok values, ⟨garbled, after⟩) := by
  have hget : (get : ExceptT GarbleError (StateM (Bench γ)) (Bench γ)).run ⟨held, workspace⟩ =
      (.ok ⟨held, workspace⟩, ⟨held, workspace⟩) := rfl
  have hrun := Bench.run_onWorkspace (held.garble algorithm circuit seed) ⟨held, workspace⟩
  rw [h] at hrun
  unfold garbleInPlace
  rw [run_bind_of_ok hget]
  exact run_bind_of_ok hrun

end InPlace

namespace GarbledCircuit

/-- A circuit can be garbled into a garbled circuit. -/
structure Admits (held : GarbledCircuit) (circuit : Circuit) : Prop where
  /-- There are as many gates as slots. -/
  count : circuit.gateCount = held.tables.size
  /-- The input wires are those garbled for. -/
  inputs : circuit.inputs = held.inputs
  /-- So are the output wires. -/
  outputs : circuit.outputs = held.outputs
  /-- The circuit is in order. -/
  valid : circuit.validate = .ok ()

/-- Why a circuit cannot be garbled into a garbled circuit, in the order of the checks. -/
inductive Misfit (held : GarbledCircuit) (circuit : Circuit) : CircuitError → Prop where
  /-- There are more gates than slots, or fewer. -/
  | count (h : circuit.gateCount ≠ held.tables.size) :
    Misfit held circuit (.tableCountMismatch held.tables.size circuit.gateCount)
  /-- Inputs or outputs are others. -/
  | wires (hcount : circuit.gateCount = held.tables.size)
    (h : ¬(circuit.inputs = held.inputs ∧ circuit.outputs = held.outputs)) :
    Misfit held circuit .wireListMismatch
  /-- The circuit is not in order. -/
  | invalid (hcount : circuit.gateCount = held.tables.size) (hinputs : circuit.inputs = held.inputs)
    (houtputs : circuit.outputs = held.outputs) {fault : CircuitError}
    (h : circuit.validate = .error fault) : Misfit held circuit fault

variable {held : GarbledCircuit} {circuit : Circuit}

/-- Either a circuit can be garbled, or something is the matter with it. -/
theorem admits_or_misfit (held : GarbledCircuit) (circuit : Circuit) :
    held.Admits circuit ∨ ∃ fault, held.Misfit circuit fault := by
  by_cases hcount : circuit.gateCount = held.tables.size
  · by_cases hwires : circuit.inputs = held.inputs ∧ circuit.outputs = held.outputs
    · cases hvalid : circuit.validate with
      | error fault => exact Or.inr ⟨fault, .invalid hcount hwires.1 hwires.2 hvalid⟩
      | ok => exact Or.inl ⟨hcount, hwires.1, hwires.2, hvalid⟩
    · exact Or.inr ⟨_, .wires hcount hwires⟩
  · exact Or.inr ⟨_, .count hcount⟩

/-- Not both. -/
theorem Misfit.not_admits {fault : CircuitError} (h : held.Misfit circuit fault) :
    ¬held.Admits circuit := by
  intro hadmits
  cases h with
  | count h => exact h hadmits.count
  | wires _ h => exact h ⟨hadmits.inputs, hadmits.outputs⟩
  | invalid _ _ _ h =>
    rw [hadmits.valid] at h
    cases h

/-- Why a circuit cannot be garbled from a seed, with a generator of one of the algorithms. -/
inductive Refuses (held : GarbledCircuit) (circuit : Circuit) (prg : PrgAlgorithm) (seed : Bytes) :
    GarbleError → Prop where
  /-- Something is the matter with the circuit. -/
  | circuit {fault : CircuitError} (h : held.Misfit circuit fault) :
    Refuses held circuit prg seed (.circuit fault)
  /-- Nothing is, and the seed has the wrong length. -/
  | seed (h : held.Admits circuit) (hseed : seed.length ≠ prg.seedLength) :
    Refuses held circuit prg seed (.key (.invalidKeyLength prg.seedLength seed.length))

/-- The shape fits where gates and wires agree. -/
theorem checkShape_eq_ok (hcount : circuit.gateCount = held.tables.size)
    (hinputs : circuit.inputs = held.inputs) (houtputs : circuit.outputs = held.outputs) :
    held.checkShape circuit = .ok () := by
  simp [checkShape, hcount, hinputs, houtputs]

section Garbling

variable {γ : Type} [Generator γ] {seed : Bytes} {workspace : Workspace γ}

/-- A circuit that cannot be garbled here is refused before anything is touched. -/
theorem Misfit.run_garble {fault : CircuitError} (h : held.Misfit circuit fault)
    (algorithm : PrfAlgorithm) (seed : Bytes) (workspace : Workspace γ) :
    (held.garble algorithm circuit seed).run workspace = (.error (.circuit fault), workspace) := by
  cases h with
  | count h => exact run_garble_of_misfit (if_pos h) algorithm seed workspace
  | wires hcount h =>
    rw [Decidable.not_and_iff_not_or_not] at h
    have hshape : held.checkShape circuit = .error .wireListMismatch := by
      unfold checkShape
      rw [if_neg (not_not_intro hcount), if_pos h]
    exact run_garble_of_misfit hshape algorithm seed workspace
  | invalid hcount hinputs houtputs h =>
    rw [run_garble_of_fit (checkShape_eq_ok hcount hinputs houtputs), run_map,
      Garbling.run_garble_of_refused (Garbling.run_prepare_of_invalid algorithm h seed workspace)]
    rfl

/-- One that can is refused where the generator has no key for the seed. -/
theorem Admits.run_garble_of_key_refused (h : held.Admits circuit) (algorithm : PrfAlgorithm)
    {generator : γ} {cause : PrimitiveError}
    (hkey : (Generator.key seed).run workspace.generator = (.error cause, generator)) :
    (held.garble algorithm circuit seed).run workspace =
      (.error (.key cause), ⟨generator, workspace.hasher⟩) := by
  rw [run_garble_of_fit (checkShape_eq_ok h.count h.inputs h.outputs), run_map,
    Garbling.run_garble_of_refused (Garbling.run_prepare_of_key_refused algorithm h.valid hkey)]
  rfl

/-- With a key it is garbled. -/
theorem Admits.exists_run_garble_of_key (h : held.Admits circuit) (algorithm : PrfAlgorithm)
    {generator : γ} {key : Vector UInt8 32}
    (hkey : (Generator.key seed).run workspace.generator = (.ok key, generator)) :
    ∃ garbled values, (held.garble algorithm circuit seed).run workspace =
      (.ok (garbled, values), ⟨generator, workspace.hasher.reset⟩) := by
  obtain ⟨result, hrun⟩ := Garbling.exists_run_garble_of_key algorithm h.valid hkey
  rw [run_garble_of_fit (checkShape_eq_ok h.count h.inputs h.outputs), run_map, hrun]
  exact ⟨_, _, rfl⟩

end Garbling

end GarbledCircuit

section Decision

variable {held : GarbledCircuit} {circuit : Circuit} {seed : Bytes}

/-- With a generator of one of the algorithms, garbling in place succeeds if everything is in order, and
otherwise has a reason to fail and leaves all as it was. -/
theorem garbleInPlace_stream_cases (held : GarbledCircuit) (algorithm : PrfAlgorithm)
    (circuit : Circuit) (seed : Bytes) (workspace : Workspace StreamGenerator) :
    (held.Admits circuit ∧ seed.length = workspace.generator.algorithm.seedLength ∧
      ∃ values after, (garbleInPlace algorithm circuit seed).run ⟨held, workspace⟩ =
        (.ok values, after)) ∨
    ∃ cause, held.Refuses circuit workspace.generator.algorithm seed cause ∧
      (garbleInPlace algorithm circuit seed).run ⟨held, workspace⟩ =
        (.error cause, ⟨held, workspace⟩) := by
  rcases held.admits_or_misfit circuit with hadmits | ⟨fault, hfault⟩
  · by_cases hseed : seed.length = workspace.generator.algorithm.seedLength
    · obtain ⟨garbled, values, hrun⟩ :=
        hadmits.exists_run_garble_of_key algorithm (StreamGenerator.run_key_of_length hseed)
      exact Or.inl ⟨hadmits, hseed, values, _, run_garbleInPlace_of_ok hrun⟩
    · have hrun :=
        hadmits.run_garble_of_key_refused algorithm (StreamGenerator.run_key_of_length_ne hseed)
      exact Or.inr ⟨_, .seed hadmits hseed, run_garbleInPlace_of_error hrun⟩
  · exact Or.inr ⟨_, .circuit hfault,
      run_garbleInPlace_of_error (hfault.run_garble algorithm seed workspace)⟩

/-- Whatever is held, whatever circuit and seed come, and wherever generator and hasher stand. With a
generator of one of the algorithms, garbling in place succeeds exactly if the circuit can be garbled
here and the seed has the length of a seed; otherwise the cause is the first thing that is amiss, never
the permutation nor the length of an output, and garbled circuit, generator and hasher are as before.
With any other generator a circuit that cannot be garbled here is refused before the generator is asked
for anything, and a generator that fails is the cause of the failure, which leaves garbled circuit and
hasher as before; one that does not fail leads to success. -/
theorem garbleInPlace_decides (held : GarbledCircuit) (algorithm : PrfAlgorithm) (circuit : Circuit)
    (seed : Bytes) :
    (∀ workspace : Workspace StreamGenerator,
      ((∃ values after, (garbleInPlace algorithm circuit seed).run ⟨held, workspace⟩ =
          (.ok values, after)) ↔
        held.Admits circuit ∧ seed.length = workspace.generator.algorithm.seedLength) ∧
      ∀ cause after, (garbleInPlace algorithm circuit seed).run ⟨held, workspace⟩ =
          (.error cause, after) →
        held.Refuses circuit workspace.generator.algorithm seed cause ∧
        (∀ reason, cause ≠ .permutation reason) ∧
        (∀ requested maximum, cause ≠ .key (.outputTooLong requested maximum)) ∧
        after = ⟨held, workspace⟩) ∧
    ∀ (γ : Type) [Generator γ] (workspace : Workspace γ),
      (∀ fault, held.Misfit circuit fault →
        (garbleInPlace algorithm circuit seed).run ⟨held, workspace⟩ =
          (.error (.circuit fault), ⟨held, workspace⟩) ∧
        ∀ calls, (garbleInPlace algorithm circuit seed).run
            ⟨held, ⟨(⟨workspace.generator, calls⟩ : Recorded γ), workspace.hasher⟩⟩ =
          (.error (.circuit fault), ⟨held, ⟨⟨workspace.generator, calls⟩, workspace.hasher⟩⟩)) ∧
      (held.Admits circuit → ∀ seeded,
        (∀ cause, (Generator.seed seed).run workspace.generator = (.error cause, seeded) →
          (garbleInPlace algorithm circuit seed).run ⟨held, workspace⟩ =
            (.error (.key cause), ⟨held, ⟨seeded, workspace.hasher⟩⟩)) ∧
        ((Generator.seed seed).run workspace.generator = (.ok (), seeded) → ∀ filled,
          (∀ cause, (Generator.fill 32).run seeded = (.error cause, filled) →
            (garbleInPlace algorithm circuit seed).run ⟨held, workspace⟩ =
              (.error (.key cause), ⟨held, ⟨filled, workspace.hasher⟩⟩)) ∧
          (∀ key, (Generator.fill 32).run seeded = (.ok key, filled) → ∃ values garbled,
            (garbleInPlace algorithm circuit seed).run ⟨held, workspace⟩ =
              (.ok values, ⟨garbled, ⟨filled, workspace.hasher.reset⟩⟩)))) := by
  constructor
  · intro workspace
    rcases garbleInPlace_stream_cases held algorithm circuit seed workspace with
      ⟨hadmits, hseed, values, after, hrun⟩ | ⟨cause, hrefuses, hrun⟩
    · refine ⟨⟨fun _ => ⟨hadmits, hseed⟩, fun _ => ⟨values, after, hrun⟩⟩, ?_⟩
      intro cause after' hrun'
      rw [hrun] at hrun'
      cases hrun'
    · refine ⟨⟨?_, ?_⟩, ?_⟩
      · rintro ⟨values, after, hrun'⟩
        rw [hrun] at hrun'
        cases hrun'
      · rintro ⟨hadmits, hseed⟩
        cases hrefuses with
        | circuit hfault => exact absurd hadmits hfault.not_admits
        | seed _ hne => exact absurd hseed hne
      · intro cause' after hrun'
        rw [hrun] at hrun'
        cases hrun'
        refine ⟨hrefuses, ?_, ?_, rfl⟩
        · rintro reason rfl
          cases hrefuses
        · rintro requested maximum rfl
          cases hrefuses
  · intro γ _ workspace
    refine ⟨?_, ?_⟩
    · intro fault hfault
      refine ⟨run_garbleInPlace_of_error (hfault.run_garble algorithm seed workspace), ?_⟩
      intro calls
      exact run_garbleInPlace_of_error (hfault.run_garble algorithm seed _)
    · intro hadmits seeded
      refine ⟨?_, ?_⟩
      · intro cause hcause
        have hkey := Generator.run_key_of_refused hcause
        exact run_garbleInPlace_of_error (hadmits.run_garble_of_key_refused algorithm hkey)
      · intro hseeded filled
        have hkey := Generator.run_key_of_seeded hseeded
        refine ⟨?_, ?_⟩
        · intro cause hcause
          rw [hcause] at hkey
          exact run_garbleInPlace_of_error (hadmits.run_garble_of_key_refused algorithm hkey)
        · intro key hfill
          rw [hfill] at hkey
          obtain ⟨garbled, values, hrun⟩ := hadmits.exists_run_garble_of_key algorithm hkey
          exact ⟨values, garbled, run_garbleInPlace_of_ok hrun⟩

/-- A generator that takes the seed and then runs dry leaves the garbled circuit blank and the hasher
fresh. -/
theorem garbleInPlace_decides_dry :
    (garbleInPlace .blake3 .negatedSum [5]).run
      ⟨.blank .negatedSum, ⟨({ seedLength := 1, isDry := true } : CountingGenerator), .new .sha256⟩⟩ =
        (.error (.key .unseeded), ⟨.blank .negatedSum,
          ⟨{ seedLength := 1, isDry := true, stream := some ⟨[5], 0⟩ }, .new .sha256⟩⟩) := by
  have hadmits : (GarbledCircuit.blank .negatedSum).Admits .negatedSum :=
    ⟨rfl, rfl, rfl, Circuit.validate_negatedSum⟩
  obtain ⟨_, hgenerator⟩ := garbleInPlace_decides (.blank .negatedSum) .blake3 .negatedSum [5]
  obtain ⟨_, hadmitted⟩ := hgenerator CountingGenerator
    ⟨{ seedLength := 1, isDry := true }, .new .sha256⟩
  exact ((hadmitted hadmits _).2 rfl _).1 _ rfl

end Decision

end SeededGarbling
