import SeededGarbling.Proofs.Outcome

/-!
# Digests over batches

A run that keeps no tables garbles a batch of gates at a time and absorbs it before the next. It
numbers the gates, feeds the hasher and uses the generator exactly as a run that keeps all tables
does, so both give one digest and leave one workspace.
-/

namespace SeededGarbling.Garbling

open Traversal

variable {γ : Type} {cipher : GateCipher}

/-- Cutting off a batch leaves the numbers of the gates behind it as they were. -/
theorem zipIdx_batch (gates : List Gate) (base : Nat) :
    gates.zipIdx base = (gates.take batchSize).zipIdx base ++
      (gates.drop batchSize).zipIdx (base + batchSize) := by
  conv => lhs; rw [← List.take_append_drop batchSize gates, List.zipIdx_append]
  by_cases hlength : batchSize ≤ gates.length
  · rw [List.length_take, Nat.min_eq_left hlength]
  · have hrest : gates.drop batchSize = [] :=
      List.drop_eq_nil_of_le (Nat.le_of_lt (Nat.lt_of_not_le hlength))
    rw [hrest, List.zipIdx_nil, List.zipIdx_nil]

/-- The tables of a batch come before those of the gates behind it. -/
theorem exists_batch {base : Nat} {gates : List Gate} {tables : List Bytes}
    (h : (gates.zipIdx base).mapM cipher.garbleGate = .ok tables) :
    ∃ batch others, ((gates.take batchSize).zipIdx base).mapM cipher.garbleGate = .ok batch ∧
      ((gates.drop batchSize).zipIdx (base + batchSize)).mapM cipher.garbleGate = .ok others ∧
      tables = batch ++ others := by
  rw [zipIdx_batch, List.mapM_append] at h
  obtain ⟨batch, hbatch, h⟩ := bind_eq_ok_iff.mp h
  obtain ⟨others, hothers, h⟩ := bind_eq_ok_iff.mp h
  cases h
  exact ⟨batch, others, hbatch, hothers, rfl⟩

/-- One batch fewer covers what is left. -/
theorem length_drop_batchSize {count : Nat} {gates : List Gate}
    (h : gates.length ≤ (count + 1) * batchSize) :
    (gates.drop batchSize).length ≤ count * batchSize := by
  rw [List.length_drop]
  rw [Nat.succ_mul] at h
  omega

/-- Enough batches absorb the tables of all gates, numbered as if there were no batches. -/
theorem run_absorbBatches {count base : Nat} {gates : List Gate}
    (hcount : gates.length ≤ count * batchSize) {tables : List Bytes}
    (htables : (gates.zipIdx base).mapM cipher.garbleGate = .ok tables)
    (workspace : Workspace γ) :
    (absorbBatches cipher count base gates).run workspace =
      (.ok (), { workspace with hasher := workspace.hasher.updateAll tables }) := by
  induction count generalizing base gates tables workspace with
  | zero =>
    have hgates : gates = [] := List.length_eq_zero_iff.mp (by omega)
    subst hgates
    cases htables
    rfl
  | succ count ih =>
    obtain ⟨batch, others, hbatch, hothers, rfl⟩ := exists_batch htables
    unfold absorbBatches
    simp only [hbatch]
    rw [run_bind_of_ok (Run.run_absorb batch workspace), ih (length_drop_batchSize hcount) hothers,
      Hasher.updateAll_append]

/-- There are enough batches for all gates. -/
theorem length_le_batches (circuit : Circuit) :
    circuit.gates.length ≤ (circuit.gateCount + batchSize - 1) / batchSize * batchSize := by
  unfold Circuit.gateCount batchSize
  omega

section Digest

variable [Generator γ] {algorithm : PrfAlgorithm} {circuit : Circuit} {seed : Bytes}
  {workspace prepared after : Workspace γ} {cause : GarbleError}

/-- A run for the digest alone stops where its preparation stops. -/
theorem run_digestOnly_of_refused
    (h : (prepare algorithm circuit seed).run workspace = (.error cause, after)) :
    (digestOnly algorithm circuit seed).run workspace = (.error cause, after) := by
  unfold digestOnly
  rw [prepare_bind, run_bind_of_error h]

/-- For the digest alone the tables are absorbed as well; none of them is kept. -/
theorem run_digestOnly_of_prepared
    (h : (prepare algorithm circuit seed).run workspace = (.ok cipher, prepared))
    {tables : List Bytes} (htables : circuit.gates.zipIdx.mapM cipher.garbleGate = .ok tables) :
    (digestOnly algorithm circuit seed).run workspace =
      (.ok (workspace.hasher.updateAll tables).peek,
        ⟨prepared.generator, workspace.hasher.reset⟩) := by
  obtain ⟨_, hhasher⟩ := sound_of_cipherOfSeed (run_prepare_eq_ok_iff.mp h).2
  unfold digestOnly
  rw [prepare_bind, run_bind_of_ok h,
    run_bind_of_ok (run_absorbBatches (length_le_batches circuit) htables prepared),
    Run.run_finalize, ← hhasher, Hasher.reset_updateAll]

/-- Whatever the circuit and the states that generator and hasher start from, a run for the digest
alone fails with the cause that garbling fails with, or succeeds with the digest that garbling
yields, and leaves generator and hasher in the same states. -/
theorem digestOnly_agrees (algorithm : PrfAlgorithm) (circuit : Circuit) (seed : Bytes)
    (workspace : Workspace γ) :
    (∃ cause after, (garble algorithm circuit seed).run workspace = (.error cause, after) ∧
      (digestOnly algorithm circuit seed).run workspace = (.error cause, after)) ∨
    (∃ result after, (garble algorithm circuit seed).run workspace = (.ok result, after) ∧
      (digestOnly algorithm circuit seed).run workspace = (.ok result.digest, after)) := by
  rcases hprepare : (prepare algorithm circuit seed).run workspace with ⟨cause | cipher, prepared⟩
  · left
    exact ⟨cause, prepared, run_garble_of_refused hprepare, run_digestOnly_of_refused hprepare⟩
  · right
    obtain ⟨result, hmade, hrun⟩ := run_garble_of_prepared hprepare
    obtain ⟨tables, htables, _, hdigest⟩ := hmade.tables
    refine ⟨result, _, hrun, ?_⟩
    rw [hdigest]
    exact run_digestOnly_of_prepared hprepare htables

end Digest

end SeededGarbling.Garbling
