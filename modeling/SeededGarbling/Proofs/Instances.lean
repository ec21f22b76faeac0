import SeededGarbling.Exchange.Garbler
import SeededGarbling.Proofs.Isolation

/-!
# Honest instances

An instance is honest when its tables are those that its seed leads to. A garbler who draws seeds
and garbles from them makes honest instances, as many as asked for: every run finds the workspace in
order and leaves it so.
-/

namespace SeededGarbling

open Traversal

/-- A garbled circuit and what is kept about it come from a seed. -/
structure Instance.Honest (member : Instance) (config : GarblingConfig) (circuit : Circuit) :
    Prop where
  /-- The seed has the configured length. -/
  length : member.seed.length = config.seedLength
  /-- Whoever holds the seed finds the same digest. -/
  regenerated : Yields config.Fits (Garbling.digestOnly config.prf circuit member.seed)
    (.ok member.values.digest)
  /-- There is a slot for every gate. -/
  size : member.garbled.tables.size = circuit.gateCount
  /-- The input wires are those of the circuit. -/
  inputs : member.garbled.inputs = circuit.inputs
  /-- So are the output wires. -/
  outputs : member.garbled.outputs = circuit.outputs
  /-- Every gate has a table, and every output can be decoded. -/
  isGarbled : member.garbled.isGarbled = true
  /-- Every table has the length of four rows. -/
  widths : ∀ table ∈ member.garbled.tables.present, table.length = tableLength
  /-- The digest is that of the tables put together. -/
  digest : member.values.digest = config.hash.digest member.garbled.tables.present.flatten
  /-- The decoding table that is kept is the one that was installed. -/
  decoding : member.garbled.decoding = member.values.decoding

section Garbling

variable {config : GarblingConfig} {circuit : Circuit} {seed : Bytes}

/-- A garbling has a slot for every gate. -/
theorem Garbling.MadeBy.size_tables {result : Garbling} {cipher : GateCipher} {hasher : Hasher}
    (h : result.MadeBy cipher circuit hasher) : result.tables.size = circuit.gateCount := by
  obtain ⟨tables, htables, hresult, _⟩ := h.tables
  rw [hresult, TableSet.size_ofTables, length_of_mapM htables, List.length_zipIdx]
  rfl

/-- Every slot holds a table as long as four rows. -/
theorem Garbling.MadeBy.exists_table {result : Garbling} {cipher : GateCipher} {hasher : Hasher}
    (h : result.MadeBy cipher circuit hasher) :
    ∀ slot ∈ result.tables.slots, ∃ table, slot = some table ∧ table.length = tableLength := by
  obtain ⟨tables, htables, hresult, _⟩ := h.tables
  rw [hresult, TableSet.ofTables, List.forall_mem_map]
  exact fun table htable => ⟨table, rfl,
    forall_mem_of_mapM htables (fun _ _ _ => GateCipher.length_of_garbleGate) table htable⟩

/-- Exactly the outputs of a garbling can be decoded. -/
theorem Garbling.MadeBy.coversExactly {result : Garbling} {cipher : GateCipher} {hasher : Hasher}
    (h : result.MadeBy cipher circuit hasher) (hsound : cipher.Sound) :
    result.decoding.coversExactly circuit.outputs = true := by
  obtain ⟨labels, hlabels⟩ := hsound.exists_labels
  rw [DecodingTable.coversExactly_iff]
  intro wire
  rw [h.get?_decoding hlabels]
  by_cases hwire : wire ∈ circuit.outputs
  · simp [hwire]
  · simp [hwire]

/-- A valid circuit is garbled from a seed of the right length, and what comes of it is honest. -/
theorem GarbledCircuit.exists_run_garble_blank (hvalid : circuit.validate = .ok ())
    (hseed : seed.length = config.seedLength) {workspace : Workspace StreamGenerator}
    (hfits : config.Fits workspace) :
    ∃ garbled values after,
      ((blank circuit).garble config.prf circuit seed).run workspace =
        (.ok (garbled, values), after) ∧
      config.Fits after ∧ Instance.Honest ⟨seed, garbled, values⟩ config circuit := by
  obtain ⟨cipher, hcipher⟩ := Garbling.exists_preparation config.prf hvalid hseed
  have hprepare := Garbling.yields_prepare config circuit seed
  rw [hcipher] at hprepare
  obtain ⟨prepared, hprepared, hrun⟩ := hprepare workspace hfits
  obtain ⟨result, hmade, hgarble⟩ := Garbling.run_garble_of_prepared hrun
  obtain ⟨tables, htables, hresult, hdigest⟩ := hmade.tables
  rw [hfits.hasher, Hasher.peek_updateAll_new] at hdigest
  have hsound := (Garbling.sound_of_cipherOfSeed (Garbling.run_prepare_eq_ok_iff.mp hrun).2).1
  have hshape : (blank circuit).checkShape circuit = .ok () := by
    simp [checkShape, blank]
  refine ⟨{ blank circuit with tables := result.tables, decoding := result.decoding },
    ⟨result.inputLabels, result.outputLabels, result.decoding, result.digest⟩,
    ⟨prepared.generator, workspace.hasher.reset⟩, ?_, ?_, ?_⟩
  · unfold garble
    rw [run_bind_of_ok (by rw [Run.run_ofCircuit, hshape]; rfl), run_bind_of_ok hgarble]
    rfl
  · refine ⟨hprepared.algorithm, ?_⟩
    rw [hfits.hasher]
    rfl
  · constructor
    case length => exact hseed
    case regenerated =>
      rw [hdigest]
      exact Garbling.yields_digestOnly_of_prepared hprepare htables
    case size => exact hmade.size_tables
    case inputs => rfl
    case outputs => rfl
    case isGarbled =>
      rw [isGarbled, hresult, TableSet.isComplete_ofTables, Bool.true_and]
      exact hmade.coversExactly hsound
    case widths =>
      rw [hresult, TableSet.present_ofTables]
      exact forall_mem_of_mapM htables fun _ _ _ => GateCipher.length_of_garbleGate
    case digest =>
      rw [hdigest, hresult, TableSet.present_ofTables]
    case decoding => rfl

end Garbling

namespace Garbler

variable {ρ : Type} [RandomSource ρ] {config : GarblingConfig} {circuit : Circuit}

/-- Whatever the source, as many honest instances are drawn as asked for. -/
theorem exists_run_drawInstances (hvalid : circuit.validate = .ok ()) (count : Nat)
    {workspace : Workspace StreamGenerator} (hfits : config.Fits workspace) (source : ρ) :
    ∃ instances after,
      (drawInstances config circuit count workspace).run source = (.ok instances, after) ∧
      instances.length = count ∧ ∀ member ∈ instances, member.Honest config circuit := by
  induction count generalizing workspace source with
  | zero => exact ⟨[], source, rfl, rfl, fun member hmember => absurd hmember List.not_mem_nil⟩
  | succ count ih =>
    rcases hdraw : (RandomSource.bytes config.seedLength : StateM ρ _).run source with ⟨bytes, drawn⟩
    have hseed : bytes.toList.length = config.seedLength := Vector.length_toList
    obtain ⟨garbled, values, next, hgarble, hnext, hhonest⟩ :=
      GarbledCircuit.exists_run_garble_blank hvalid hseed hfits
    obtain ⟨others, after, hothers, hlength, hall⟩ := ih hnext drawn
    refine ⟨⟨bytes.toList, garbled, values⟩ :: others, after, ?_, ?_, ?_⟩
    · unfold drawInstances
      rw [run_bind_of_ok (run_liftM hdraw)]
      simp only [hgarble]
      rw [run_bind_of_ok hothers]
      rfl
    · rw [List.length_cons, hlength]
    · exact List.forall_mem_cons.mpr ⟨hhonest, hall⟩

/-- A commitment to a valid circuit succeeds; what was committed to before does not matter. -/
theorem exists_run_commit (garbler : Garbler) (hvalid : garbler.circuit.validate = .ok ())
    (count : Nat) (source : ρ) :
    ∃ instances after,
      (garbler.commit count).run source = (.ok { garbler with instances := instances }, after) ∧
      instances.length = count ∧
      ∀ member ∈ instances, member.Honest garbler.config garbler.circuit := by
  obtain ⟨instances, after, hrun, hlength, hall⟩ :=
    exists_run_drawInstances hvalid count garbler.config.fits_workspace source
  refine ⟨instances, after, ?_, hlength, hall⟩
  unfold commit
  rw [run_bind_of_ok hrun]
  rfl

end Garbler

end SeededGarbling
