import SeededGarbling.Proofs.Cipher

/-!
# What a run yields

A run of garbling checks its circuit, turns its seed into a cipher, and from then on cannot stop. It
leaves the generator as the cipher left it and the hasher without a trace of the tables.
-/

namespace SeededGarbling

open Traversal

namespace Hasher

/-- Absorbing leaves no trace behind a reset. -/
@[simp] theorem reset_updateAll (hasher : Hasher) (pieces : List Bytes) :
    (hasher.updateAll pieces).reset = hasher.reset := by
  simp only [reset, algorithm_updateAll]

/-- Where one list of pieces ends and the next begins leaves no trace either. -/
theorem updateAll_append (hasher : Hasher) (first second : List Bytes) :
    hasher.updateAll (first ++ second) = (hasher.updateAll first).updateAll second :=
  List.foldl_append

end Hasher

namespace Garbling

variable {γ : Type} [Generator γ] {algorithm : PrfAlgorithm} {circuit : Circuit} {seed : Bytes}
  {workspace prepared after : Workspace γ} {cipher : GateCipher} {result : Garbling}
  {cause : GarbleError}

/-- What every run begins with: the circuit is checked, and the seed is turned into a cipher. -/
def prepare (algorithm : PrfAlgorithm) (circuit : Circuit) (seed : Bytes) : Run γ GateCipher := do
  Run.ofCircuit circuit.validate
  cipherOfSeed algorithm seed

/-- The preparation succeeds for a circuit in order and a seed that the generator accepts. -/
theorem run_prepare_eq_ok_iff :
    (prepare algorithm circuit seed).run workspace = (.ok cipher, prepared) ↔
      circuit.validate = .ok () ∧
        (cipherOfSeed algorithm seed).run workspace = (.ok cipher, prepared) := by
  unfold prepare
  constructor
  · intro h
    obtain ⟨_, w, hcheck, hcipher⟩ := run_bind_eq_ok h
    obtain ⟨hvalid, rfl⟩ := Run.run_ofCircuit_eq_ok hcheck
    exact ⟨hvalid, hcipher⟩
  · rintro ⟨hvalid, hcipher⟩
    rw [run_bind_of_ok (by rw [Run.run_ofCircuit, hvalid]; rfl), hcipher]

/-- A run is its preparation and what it does with the cipher. -/
theorem prepare_bind {α : Type} (algorithm : PrfAlgorithm) (circuit : Circuit) (seed : Bytes)
    (rest : GateCipher → Run γ α) :
    (do
      Run.ofCircuit circuit.validate
      let cipher ← cipherOfSeed algorithm seed
      rest cipher) = prepare algorithm circuit seed >>= rest := by
  unfold prepare
  rw [bind_assoc]

/-- A garbling stops where its preparation stops. -/
theorem run_garble_of_refused
    (h : (prepare algorithm circuit seed).run workspace = (.error cause, after)) :
    (garble algorithm circuit seed).run workspace = (.error cause, after) := by
  unfold garble
  rw [prepare_bind, run_bind_of_error h]

/-- What a cipher makes of a circuit, behind what a hasher held before. -/
structure MadeBy (result : Garbling) (cipher : GateCipher) (circuit : Circuit) (hasher : Hasher) :
    Prop where
  /-- There is a table for every gate, and the digest covers all of them in order. -/
  tables : ∃ tables, circuit.gates.zipIdx.mapM cipher.garbleGate = .ok tables ∧
    result.tables = .ofTables tables ∧ result.digest = (hasher.updateAll tables).peek
  /-- The labels of the inputs are those of the cipher. -/
  inputLabels : cipher.labelsOf circuit.inputs = .ok result.inputLabels
  /-- So are the labels of the outputs. -/
  outputLabels : cipher.labelsOf circuit.outputs = .ok result.outputLabels
  /-- The decoding table holds their permute bits. -/
  decoding : result.decoding = ⟨result.outputLabels.map fun _ labels => labels.permute⟩

/-- The table of a gate is in the slot with the number of the gate. -/
theorem MadeBy.get?_tables {hasher : Hasher} (h : result.MadeBy cipher circuit hasher)
    {indexed : Gate × Nat} (hindexed : indexed ∈ circuit.gates.zipIdx) :
    ∃ table, result.tables.get? indexed.2 = some table ∧ cipher.garbleGate indexed = .ok table := by
  obtain ⟨tables, htables, hresult, _⟩ := h.tables
  have hgate : circuit.gates.zipIdx[indexed.2]? = some indexed := by
    rw [List.getElem?_zipIdx, List.mem_zipIdx_iff_getElem?.mp hindexed, Option.map_some,
      Nat.zero_add]
  obtain ⟨table, htable, hgarble⟩ := getElem?_of_mapM htables hgate
  exact ⟨table, by rw [hresult, TableSet.get?_ofTables, htable], hgarble⟩

/-- The labels of the inputs are kept for all inputs. -/
theorem MadeBy.getElem?_inputLabels {hasher : Hasher} (h : result.MadeBy cipher circuit hasher)
    {labels : Wire → WireLabels} (hlabels : ∀ wire, cipher.wireLabels wire = .ok (labels wire))
    {wire : Wire} (hwire : wire ∈ circuit.inputs) :
    result.inputLabels[wire]? = some (labels wire) := by
  have hinputs := h.inputLabels
  rw [GateCipher.labelsOf_eq_ok hlabels, Except.ok.injEq] at hinputs
  rw [← hinputs, getElem?_ofList_map, if_pos hwire]

/-- The decoding table holds the permute bits of exactly the outputs. -/
theorem MadeBy.get?_decoding {hasher : Hasher} (h : result.MadeBy cipher circuit hasher)
    {labels : Wire → WireLabels} (hlabels : ∀ wire, cipher.wireLabels wire = .ok (labels wire))
    (wire : Wire) :
    result.decoding.get? wire =
      if wire ∈ circuit.outputs then some (labels wire).permute else none := by
  have houtputs := h.outputLabels
  rw [GateCipher.labelsOf_eq_ok hlabels, Except.ok.injEq] at houtputs
  rw [DecodingTable.get?, h.decoding, Std.ExtTreeMap.getElem?_map, ← houtputs, getElem?_ofList_map]
  by_cases hwire : wire ∈ circuit.outputs
  · rw [if_pos hwire, if_pos hwire, Option.map_some]
  · rw [if_neg hwire, if_neg hwire, Option.map_none]

/-- Once there is a cipher, garbling cannot stop any more, and the hasher is left empty. -/
theorem run_garble_of_prepared
    (h : (prepare algorithm circuit seed).run workspace = (.ok cipher, prepared)) :
    ∃ result : Garbling, result.MadeBy cipher circuit workspace.hasher ∧
      (garble algorithm circuit seed).run workspace =
        (.ok result, ⟨prepared.generator, workspace.hasher.reset⟩) := by
  obtain ⟨hsound, hhasher⟩ := sound_of_cipherOfSeed (run_prepare_eq_ok_iff.mp h).2
  obtain ⟨tables, htables⟩ := hsound.exists_tables circuit.gates.zipIdx
  obtain ⟨inputLabels, hinputs⟩ := hsound.exists_labelsOf circuit.inputs
  obtain ⟨outputLabels, houtputs⟩ := hsound.exists_labelsOf circuit.outputs
  refine ⟨⟨.ofTables tables, ⟨outputLabels.map fun _ labels => labels.permute⟩, inputLabels,
    outputLabels, (workspace.hasher.updateAll tables).peek⟩,
    ⟨⟨tables, htables, rfl, rfl⟩, hinputs, houtputs, rfl⟩, ?_⟩
  unfold garble
  rw [prepare_bind, run_bind_of_ok h, htables, hinputs, houtputs, ← hhasher,
    ← Hasher.reset_updateAll prepared.hasher tables]
  rfl

/-- Hence garbling fails exactly as its preparation does. -/
theorem run_garble_eq_error_iff :
    (garble algorithm circuit seed).run workspace = (.error cause, after) ↔
      (prepare algorithm circuit seed).run workspace = (.error cause, after) := by
  constructor
  · intro h
    rcases hprepare : (prepare algorithm circuit seed).run workspace with ⟨other | cipher, prepared⟩
    · rw [run_garble_of_refused hprepare] at h
      cases h
      rfl
    · obtain ⟨result, _, hrun⟩ := run_garble_of_prepared hprepare
      rw [hrun] at h
      cases h
  · exact run_garble_of_refused

/-- A garbling that succeeded had a cipher and holds what this makes of the circuit. -/
theorem madeBy_of_run_garble
    (h : (garble algorithm circuit seed).run workspace = (.ok result, after)) :
    ∃ cipher prepared,
      (prepare algorithm circuit seed).run workspace = (.ok cipher, prepared) ∧
        result.MadeBy cipher circuit workspace.hasher ∧
        after = ⟨prepared.generator, workspace.hasher.reset⟩ := by
  rcases hprepare : (prepare algorithm circuit seed).run workspace with ⟨_ | cipher, prepared⟩
  · rw [run_garble_of_refused hprepare] at h
    cases h
  · obtain ⟨made, hmade, hrun⟩ := run_garble_of_prepared hprepare
    rw [hrun] at h
    cases h
    exact ⟨cipher, prepared, rfl, hmade, rfl⟩

end Garbling

end SeededGarbling
