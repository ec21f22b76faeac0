import SeededGarbling.Garbling.GarbledCircuit
import SeededGarbling.Proofs.Batches
import SeededGarbling.Proofs.Preparation

/-!
# Runs from scratch

What a run makes of its circuit is decided by its cipher, and of the hasher it uses the bytes that are
pending, which come before the tables in the digest. Hence a run that finds a workspace in any state is
the run that finds a fresh one, but for the pending bytes in front of its digest.
-/

namespace SeededGarbling

namespace Garbling

/-- What a run with a fresh generator and a fresh hasher comes to. -/
def fromScratch (prg : PrgAlgorithm) (hash : HashAlgorithm) (algorithm : PrfAlgorithm)
    (circuit : Circuit) (seed : Bytes) : Except GarbleError Garbling :=
  ((garble algorithm circuit seed).run (⟨.new prg, .new hash⟩ : Workspace StreamGenerator)).1

/-- A run from scratch fails as its preparation does, and otherwise its result is what the cipher makes
of the circuit. -/
theorem fromScratch_cases (prg : PrgAlgorithm) (hash : HashAlgorithm) (algorithm : PrfAlgorithm)
    (circuit : Circuit) (seed : Bytes) :
    (∃ cause, preparation prg algorithm circuit seed = .error cause ∧
      fromScratch prg hash algorithm circuit seed = .error cause) ∨
    (∃ cipher result, preparation prg algorithm circuit seed = .ok cipher ∧
      fromScratch prg hash algorithm circuit seed = .ok result ∧
      result.MadeBy cipher circuit (.new hash)) := by
  obtain ⟨after, hrun, _⟩ := run_prepare_stream algorithm circuit seed (.new prg) (.new hash)
  change _ = (preparation prg algorithm circuit seed, _) at hrun
  unfold fromScratch
  cases hpreparation : preparation prg algorithm circuit seed with
  | error cause =>
    rw [hpreparation] at hrun
    rw [run_garble_of_refused hrun]
    exact Or.inl ⟨cause, rfl, rfl⟩
  | ok cipher =>
    rw [hpreparation] at hrun
    obtain ⟨result, hmade, hgarble⟩ := run_garble_of_prepared hrun
    rw [hgarble]
    exact Or.inr ⟨cipher, result, rfl, rfl, hmade⟩

/-- A valid circuit is garbled from any seed of the right length. -/
theorem exists_fromScratch (hash : HashAlgorithm) (algorithm : PrfAlgorithm) {circuit : Circuit}
    (hvalid : circuit.validate = .ok ()) {prg : PrgAlgorithm} {seed : Bytes}
    (hseed : seed.length = prg.seedLength) :
    ∃ result, fromScratch prg hash algorithm circuit seed = .ok result := by
  let fresh : Workspace StreamGenerator := ⟨.new prg, .new hash⟩
  have hfresh : seed.length = fresh.generator.algorithm.seedLength := hseed
  obtain ⟨result, after, hrun⟩ := exists_run_garble_stream algorithm hvalid hfresh
  exact ⟨result, congrArg Prod.fst hrun⟩

end Garbling

/-- Digests are compared for equality. -/
theorem digestsMatch_eq_decide (committed computed : Bytes) :
    digestsMatch committed computed = decide (committed = computed) := by
  rw [Bool.eq_iff_iff, digestsMatch_iff, decide_eq_true_eq]

/-- A seed is checked by the digest that it leads to. -/
theorem Audit.checkSeed_eq_map {γ : Type} [Generator γ] (algorithm : PrfAlgorithm)
    (circuit : Circuit) (seed committed : Bytes) :
    checkSeed algorithm circuit seed committed =
      (fun computed => decide (committed = computed)) <$>
        (Garbling.digestOnly algorithm circuit seed : Run γ Bytes) := by
  rw [map_eq_pure_bind]
  simp only [checkSeed, digestsMatch_eq_decide]

/-- The digest of tables behind bytes that are pending. -/
def TableSet.digestBehind (tables : TableSet) (hash : HashAlgorithm) (pending : Bytes) : Bytes :=
  hash.digest (pending ++ tables.present.flatten)

/-- A result with its digest taken behind bytes that are pending. -/
def Garbling.behind (result : Garbling) (hash : HashAlgorithm) (pending : Bytes) : Garbling :=
  { result with digest := result.tables.digestBehind hash pending }

/-- What is absorbed comes behind what is pending. -/
theorem Hasher.peek_updateAll_present (hasher : Hasher) (tables : TableSet) :
    (hasher.updateAll tables.present).peek =
      tables.digestBehind hasher.algorithm hasher.pending.toList := by
  rw [peek, algorithm_updateAll, pending_updateAll, TableSet.digestBehind]

/-- One cipher makes the same of a circuit behind any hasher, but for the digest. -/
theorem Garbling.MadeBy.eq_behind {result other : Garbling} {cipher : GateCipher} {circuit : Circuit}
    {hasher hasher' : Hasher} (h : result.MadeBy cipher circuit hasher)
    (h' : other.MadeBy cipher circuit hasher') :
    result = other.behind hasher.algorithm hasher.pending.toList := by
  obtain ⟨⟨tables, htables, hresult, hdigest⟩, hinputs, houtputs, hdecoding⟩ := h
  obtain ⟨⟨tables', htables', hresult', _⟩, hinputs', houtputs', hdecoding'⟩ := h'
  rw [htables, Except.ok.injEq] at htables'
  rw [hinputs, Except.ok.injEq] at hinputs'
  rw [houtputs, Except.ok.injEq] at houtputs'
  subst htables'
  have hpeek := hasher.peek_updateAll_present (.ofTables tables)
  rw [TableSet.present_ofTables, ← hdigest] at hpeek
  obtain ⟨_, _, _, _, _⟩ := result
  obtain ⟨_, _, _, _, _⟩ := other
  simp_all [behind]

namespace Run

variable {α β : Type} {x : Run (Recorded StreamGenerator) α}
  {workspace : Workspace (Recorded StreamGenerator)} {seed : Bytes} {outcome : Except GarbleError α}

/-- A run from a seed has an outcome, and is no burden to the next one: a failure leaves the hasher
alone, a success leaves it empty and has asked the generator for one seed and one key, and either way
the generator keeps its algorithm. -/
inductive Settles (x : Run (Recorded StreamGenerator) α)
    (workspace : Workspace (Recorded StreamGenerator)) (seed : Bytes) : Except GarbleError α → Prop where
  /-- The run fails. -/
  | refused {cause : GarbleError} {after : Workspace (Recorded StreamGenerator)}
    (hrun : x.run workspace = (.error cause, after))
    (halgorithm : after.generator.generator.algorithm = workspace.generator.generator.algorithm)
    (hhasher : after.hasher = workspace.hasher) : Settles x workspace seed (.error cause)
  /-- The run succeeds. -/
  | finished {a : α} {after : Workspace (Recorded StreamGenerator)}
    (hrun : x.run workspace = (.ok a, after))
    (halgorithm : after.generator.generator.algorithm = workspace.generator.generator.algorithm)
    (hhasher : after.hasher = workspace.hasher.reset)
    (hasked : after.generator.calls =
      workspace.generator.calls ++ #[.seed seed.length, .fill 32]) : Settles x workspace seed (.ok a)

/-- Runs that go the same way settle the same way. -/
theorem Settles.of_run_eq {y : Run (Recorded StreamGenerator) α}
    (h : x.Settles workspace seed outcome) (hrun : y.run workspace = x.run workspace) :
    y.Settles workspace seed outcome := by
  cases h with
  | refused hx halgorithm hhasher => exact .refused (hrun.trans hx) halgorithm hhasher
  | finished hx halgorithm hhasher hasked =>
    exact .finished (hrun.trans hx) halgorithm hhasher hasked

/-- What is made of a result changes nothing else. -/
theorem Settles.map (h : x.Settles workspace seed outcome) (f : α → β) :
    (f <$> x : Run (Recorded StreamGenerator) β).Settles workspace seed (f <$> outcome) := by
  have hmap := run_map f x workspace
  cases h with
  | refused hx halgorithm hhasher =>
    rw [hx] at hmap
    exact .refused hmap halgorithm hhasher
  | finished hx halgorithm hhasher hasked =>
    rw [hx] at hmap
    exact .finished hmap halgorithm hhasher hasked

end Run

section Settling

open Garbling

variable {α : Type} {x : Run (Recorded StreamGenerator) α} {algorithm : PrfAlgorithm}
  {circuit : Circuit} {seed : Bytes}

/-- A run settles with what it makes of the result from scratch, if it stops where its preparation
stops and from then on makes this of whatever the cipher makes of the circuit. -/
theorem Run.settles_of_prepare {workspace : Workspace (Recorded StreamGenerator)}
    {make : Garbling → α}
    (hrefused : ∀ cause after,
      (prepare algorithm circuit seed).run workspace = (.error cause, after) →
        x.run workspace = (.error cause, after))
    (hprepared : ∀ cipher prepared result,
      (prepare algorithm circuit seed).run workspace = (.ok cipher, prepared) →
        result.MadeBy cipher circuit (.new workspace.hasher.algorithm) →
          x.run workspace = (.ok (make result), ⟨prepared.generator, workspace.hasher.reset⟩)) :
    x.Settles workspace seed (make <$> fromScratch workspace.generator.generator.algorithm
      workspace.hasher.algorithm algorithm circuit seed) := by
  -- Here and from scratch there is one preparation, so both runs fail or both have its cipher.
  obtain ⟨after, hrun, halgorithm, hasked⟩ :=
    run_prepare_recorded algorithm circuit seed workspace.generator workspace.hasher
  rcases fromScratch_cases workspace.generator.generator.algorithm workspace.hasher.algorithm
    algorithm circuit seed with
      ⟨cause, hpreparation, hscratch⟩ | ⟨cipher, result, hpreparation, hscratch, hmade⟩
  · rw [hpreparation] at hrun
    rw [hscratch]
    exact .refused (hrefused cause _ hrun) halgorithm rfl
  · rw [hpreparation] at hrun
    rw [hscratch]
    exact .finished (hprepared cipher _ result hrun hmade) halgorithm rfl (hasked cipher hpreparation)

variable (algorithm circuit seed) (workspace : Workspace (Recorded StreamGenerator))

/-- Garbling settles with the result from scratch, behind what is pending. -/
theorem Garbling.settles_garble :
    (garble algorithm circuit seed).Settles workspace seed
      ((fun result => result.behind workspace.hasher.algorithm workspace.hasher.pending.toList) <$>
        fromScratch workspace.generator.generator.algorithm workspace.hasher.algorithm algorithm
          circuit seed) := by
  apply Run.settles_of_prepare
  · intro cause after hprepare
    exact run_garble_of_refused hprepare
  · intro cipher prepared result hprepare hmade
    obtain ⟨garbled, hgarbled, hrun⟩ := run_garble_of_prepared hprepare
    rw [hrun, hgarbled.eq_behind hmade]

/-- A run for the digest alone settles with the digest of the tables from scratch, behind what is
pending. -/
theorem Garbling.settles_digestOnly :
    (digestOnly algorithm circuit seed).Settles workspace seed
      ((fun result => result.tables.digestBehind workspace.hasher.algorithm
          workspace.hasher.pending.toList) <$>
        fromScratch workspace.generator.generator.algorithm workspace.hasher.algorithm algorithm
          circuit seed) := by
  apply Run.settles_of_prepare
  · intro cause after hprepare
    exact run_digestOnly_of_refused hprepare
  · intro cipher prepared result hprepare hmade
    obtain ⟨tables, htables, hresult, _⟩ := hmade.tables
    have hdigest := workspace.hasher.peek_updateAll_present result.tables
    rw [hresult, TableSet.present_ofTables] at hdigest
    rw [run_digestOnly_of_prepared hprepare htables, hresult, hdigest]

/-- So does the check of a seed, with the comparison of this digest. -/
theorem Audit.settles_checkSeed (committed : Bytes) :
    (checkSeed algorithm circuit seed committed).Settles workspace seed
      ((fun result => decide (committed = result.tables.digestBehind workspace.hasher.algorithm
          workspace.hasher.pending.toList)) <$>
        fromScratch workspace.generator.generator.algorithm workspace.hasher.algorithm algorithm
          circuit seed) := by
  have hsettles := (settles_digestOnly algorithm circuit seed workspace).map
    fun computed => decide (committed = computed)
  rw [Functor.map_map] at hsettles
  rw [checkSeed_eq_map]
  exact hsettles

end Settling

namespace GarbledCircuit

variable {held : GarbledCircuit} {circuit : Circuit}

/-- Tables and decoding table take the places of the old ones; the labels and the digest are kept by
the garbler. -/
def install (held : GarbledCircuit) (result : Garbling) : GarbledCircuit × CreationValues :=
  ({ held with tables := result.tables, decoding := result.decoding },
    ⟨result.inputLabels, result.outputLabels, result.decoding, result.digest⟩)

/-- What garbling into a garbled circuit with a fresh generator and a fresh hasher comes to. -/
def fromScratch (held : GarbledCircuit) (prg : PrgAlgorithm) (hash : HashAlgorithm)
    (algorithm : PrfAlgorithm) (circuit : Circuit) (seed : Bytes) :
    Except GarbleError (GarbledCircuit × CreationValues) :=
  ((held.garble algorithm circuit seed).run
    (⟨.new prg, .new hash⟩ : Workspace StreamGenerator)).1

section Shapes

variable {γ : Type} [Generator γ]

/-- A circuit of another shape is refused at once. -/
theorem run_garble_of_misfit {fault : CircuitError} (h : held.checkShape circuit = .error fault)
    (algorithm : PrfAlgorithm) (seed : Bytes) (workspace : Workspace γ) :
    (held.garble algorithm circuit seed).run workspace = (.error (.circuit fault), workspace) := by
  have hcheck : (Run.ofCircuit (held.checkShape circuit) : Run γ Unit).run workspace =
      (.error (.circuit fault), workspace) := by
    rw [Run.run_ofCircuit, h]
    rfl
  exact run_bind_of_error hcheck

/-- One of the right shape is garbled, and the result is installed. -/
theorem run_garble_of_fit (h : held.checkShape circuit = .ok ()) (algorithm : PrfAlgorithm)
    (seed : Bytes) (workspace : Workspace γ) :
    (held.garble algorithm circuit seed).run workspace =
      (held.install <$> Garbling.garble algorithm circuit seed : Run γ _).run workspace := by
  have hcheck : (Run.ofCircuit (held.checkShape circuit) : Run γ Unit).run workspace =
      (.ok (), workspace) := by
    rw [Run.run_ofCircuit, h]
    rfl
  rw [map_eq_pure_bind]
  exact run_bind_of_ok hcheck

end Shapes

/-- Garbling into a garbled circuit settles with what it comes to from scratch, but for the digest,
which is that of the tables installed behind what is pending. -/
theorem settles_garble (held : GarbledCircuit) (algorithm : PrfAlgorithm) (circuit : Circuit)
    (seed : Bytes) (workspace : Workspace (Recorded StreamGenerator)) :
    (held.garble algorithm circuit seed).Settles workspace seed
      ((fun (garbled, values) => (garbled, { values with
          digest := garbled.tables.digestBehind workspace.hasher.algorithm
            workspace.hasher.pending.toList })) <$>
        held.fromScratch workspace.generator.generator.algorithm workspace.hasher.algorithm algorithm
          circuit seed) := by
  unfold fromScratch
  cases hshape : held.checkShape circuit with
  | error fault =>
    rw [run_garble_of_misfit hshape]
    exact .refused (run_garble_of_misfit hshape algorithm seed workspace) rfl rfl
  | ok =>
    have hsettles := (Garbling.settles_garble algorithm circuit seed workspace).map held.install
    rw [run_garble_of_fit hshape, run_map]
    rw [Functor.map_map] at hsettles ⊢
    exact hsettles.of_run_eq (run_garble_of_fit hshape algorithm seed workspace)

end GarbledCircuit

end SeededGarbling
