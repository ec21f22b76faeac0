import SeededGarbling.Garbling.Config
import SeededGarbling.Proofs.Batches
import SeededGarbling.Proofs.Preparation

/-!
# Runs that share a workspace

Runs that follow each other work with one generator and one hasher. A workspace is in order when its
generator has the agreed algorithm and its hasher holds nothing. From there a run has one outcome,
whatever the generator went through before, and it leaves the workspace in order for the next run.
-/

namespace SeededGarbling

section Outcomes

variable {ε δ σ α β : Type} {inOrder : σ → Prop}

/-- From every state in order a computation has the given outcome, and leaves a state in order. -/
def Yields (inOrder : σ → Prop) (x : ExceptT ε (StateM σ) α) (outcome : Except ε α) : Prop :=
  ∀ s, inOrder s → ∃ s', inOrder s' ∧ x.run s = (outcome, s')

namespace Yields

variable {x : ExceptT ε (StateM σ) α} {outcome : Except ε α}

/-- Any state in order will do to find the outcome. -/
theorem outcome_eq (h : Yields inOrder x outcome) {s : σ} (hs : inOrder s) :
    (x.run s).1 = outcome := by
  obtain ⟨s', _, hrun⟩ := h s hs
  rw [hrun]

/-- A value is its own outcome. -/
theorem pure (a : α) : Yields inOrder (Pure.pure a : ExceptT ε (StateM σ) α) (.ok a) :=
  fun s hs => ⟨s, hs, rfl⟩

/-- So is a failure. -/
theorem throw (e : ε) : Yields inOrder (throw e : ExceptT ε (StateM σ) α) (.error e) :=
  fun s hs => ⟨s, hs, rfl⟩

/-- The outcome of a sequence is the sequence of the outcomes. -/
theorem bind {f : α → ExceptT ε (StateM σ) β} {next : α → Except ε β}
    (hx : Yields inOrder x outcome) (hf : ∀ a, Yields inOrder (f a) (next a)) :
    Yields inOrder (x >>= f) (outcome >>= next) := by
  intro s hs
  obtain ⟨s', hs', hrun⟩ := hx s hs
  cases outcome with
  | error e => exact ⟨s', hs', run_bind_of_error hrun⟩
  | ok a =>
    obtain ⟨s'', hs'', hnext⟩ := hf a s' hs'
    refine ⟨s'', hs'', ?_⟩
    rw [run_bind_of_ok hrun, hnext]
    rfl

/-- Failures are renamed in the outcome. -/
theorem adapt (hx : Yields inOrder x outcome) (rename : ε → δ) :
    Yields inOrder (ExceptT.adapt rename x) (outcome.mapError rename) := by
  intro s hs
  obtain ⟨s', hs', hrun⟩ := hx s hs
  refine ⟨s', hs', ?_⟩
  rw [run_adapt, hrun]

/-- A traversal of which every step has an outcome has that of the traversal of the outcomes. -/
theorem forM {f : α → ExceptT ε (StateM σ) Unit} {g : α → Except ε Unit}
    (h : ∀ a, Yields inOrder (f a) (g a)) (xs : List α) :
    Yields inOrder (xs.forM f) (xs.forM g) := by
  induction xs with
  | nil => exact Yields.pure ()
  | cons a xs ih => exact (h a).bind fun _ => ih

end Yields

end Outcomes

/-- A workspace is in order: any generator of the agreed algorithm, and a hasher that holds
nothing. -/
structure GarblingConfig.Fits (config : GarblingConfig) (workspace : Workspace StreamGenerator) :
    Prop where
  /-- The generator has the agreed algorithm; it may be running. -/
  algorithm : workspace.generator.algorithm = config.prg
  /-- The hasher has the agreed algorithm, and nothing was absorbed since its last digest. -/
  hasher : workspace.hasher = .new config.hash

/-- A workspace starts in order. -/
theorem GarblingConfig.fits_workspace (config : GarblingConfig) : config.Fits config.workspace :=
  ⟨rfl, rfl⟩

/-- Behind nothing, the digest is that of the pieces put together. -/
@[simp] theorem Hasher.peek_updateAll_new (algorithm : HashAlgorithm) (pieces : List Bytes) :
    ((new algorithm).updateAll pieces).peek = algorithm.digest pieces.flatten := by
  rw [peek, algorithm_updateAll, pending_updateAll]
  rfl

namespace Garbling

variable {config : GarblingConfig} {circuit : Circuit} {seed : Bytes} {cipher : GateCipher}

/-- The preparation of a run has one outcome, for any circuit and any seed. -/
theorem yields_prepare (config : GarblingConfig) (circuit : Circuit) (seed : Bytes) :
    Yields config.Fits (prepare config.prf circuit seed)
      (preparation config.prg config.prf circuit seed) := by
  intro workspace hfits
  obtain ⟨after, hrun, halgorithm⟩ :=
    run_prepare_stream config.prf circuit seed workspace.generator workspace.hasher
  rw [hfits.algorithm] at hrun halgorithm
  exact ⟨⟨after, workspace.hasher⟩, ⟨halgorithm, hfits.hasher⟩, hrun⟩

/-- The digest of a circuit in order and a good seed is that of all tables put together. -/
theorem yields_digestOnly_of_prepared
    (h : Yields config.Fits (prepare config.prf circuit seed) (.ok cipher)) {tables : List Bytes}
    (htables : circuit.gates.zipIdx.mapM cipher.garbleGate = .ok tables) :
    Yields config.Fits (digestOnly config.prf circuit seed)
      (.ok (config.hash.digest tables.flatten)) := by
  intro workspace hfits
  obtain ⟨prepared, hprepared, hrun⟩ := h workspace hfits
  have hdigest := run_digestOnly_of_prepared hrun htables
  rw [hfits.hasher, Hasher.peek_updateAll_new] at hdigest
  exact ⟨⟨prepared.generator, .new config.hash⟩, ⟨hprepared.algorithm, rfl⟩, hdigest⟩

/-- A run for the digest alone has one outcome, for any circuit and any seed. -/
theorem exists_yields_digestOnly (config : GarblingConfig) (circuit : Circuit) (seed : Bytes) :
    ∃ outcome, Yields config.Fits (digestOnly config.prf circuit seed) outcome := by
  have hprepare := yields_prepare config circuit seed
  cases hpreparation : preparation config.prg config.prf circuit seed with
  | error cause =>
    rw [hpreparation] at hprepare
    refine ⟨.error cause, ?_⟩
    intro workspace hfits
    obtain ⟨after, hafter, hrun⟩ := hprepare workspace hfits
    exact ⟨after, hafter, run_digestOnly_of_refused hrun⟩
  | ok cipher =>
    rw [hpreparation] at hprepare
    obtain ⟨_, _, hrun⟩ := hprepare config.workspace config.fits_workspace
    obtain ⟨tables, htables⟩ :=
      (sound_of_cipherOfSeed (run_prepare_eq_ok_iff.mp hrun).2).1.exists_tables circuit.gates.zipIdx
    exact ⟨_, yields_digestOnly_of_prepared hprepare htables⟩

end Garbling

end SeededGarbling
