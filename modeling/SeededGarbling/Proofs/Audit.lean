import SeededGarbling.Exchange.Verifier
import SeededGarbling.Proofs.Isolation
import SeededGarbling.Proofs.Openings

/-!
# What an audit decides

An audit accepts an opening exactly when it fits the check list, every revealed seed gives back the
digest that was committed to, and so does every garbled circuit handed over, which also has the shape
of the circuit. The checks share one generator and one hasher, but each of them has the outcome that
it has on its own; hence a refusal belongs to the first instance that deserves it.
-/

namespace SeededGarbling

open Traversal

/-- Coverage in terms of the two requirements on a garbled circuit. -/
theorem GarbledCircuit.isGarbled_iff (garbled : GarbledCircuit) :
    garbled.isGarbled = true ↔ (∀ slot ∈ garbled.tables.slots, slot.isSome = true) ∧
      ∀ wire, wire ∈ garbled.outputs ↔ (garbled.decoding.get? wire).isSome = true := by
  rw [isGarbled, Bool.and_eq_true, DecodingTable.coversExactly_iff, TableSet.isComplete,
    List.all_eq_true]

namespace Verifier

variable {verifier : Verifier} {commitments : List Bytes} {checks : List Nat} {opening : Opening}
  {index : Nat} {seed : Bytes} {garbled : GarbledCircuit}

/-- The digest of the tables that a revealed seed leads to. -/
def regenerate (verifier : Verifier) (seed : Bytes) : Except GarbleError Bytes :=
  ((Garbling.digestOnly verifier.config.prf verifier.circuit seed).run verifier.config.workspace).1

/-- A seed is regenerated as it would be alone, whatever was regenerated before. -/
theorem yields_regenerate (verifier : Verifier) (seed : Bytes) :
    Yields verifier.config.Fits (Garbling.digestOnly verifier.config.prf verifier.circuit seed)
      (verifier.regenerate seed) := by
  obtain ⟨outcome, h⟩ :=
    Garbling.exists_yields_digestOnly verifier.config verifier.circuit seed
  rw [regenerate, h.outcome_eq verifier.config.fits_workspace]
  exact h

/-- What a seed revealed for an instance has to fulfil. -/
structure SeedPasses (verifier : Verifier) (commitments : List Bytes) (index : Nat) (seed : Bytes) :
    Prop where
  /-- It has the configured length. -/
  length : seed.length = verifier.config.seedLength
  /-- It gives back the digest that was committed to. -/
  digest : ∃ digest, verifier.regenerate seed = .ok digest ∧ commitments[index]? = some digest

/-- Why a revealed seed is refused, in the order of the checks. -/
inductive SeedFails (verifier : Verifier) (commitments : List Bytes) (index : Nat) (seed : Bytes) :
    ExchangeError → Prop where
  /-- It has another length. -/
  | length (h : seed.length ≠ verifier.config.seedLength) :
    SeedFails verifier commitments index seed (.cheatAttempt index)
  /-- Nothing can be garbled from it. -/
  | garbling (hlength : seed.length = verifier.config.seedLength) {cause : GarbleError}
    (h : verifier.regenerate seed = .error cause) :
    SeedFails verifier commitments index seed (.garble cause)
  /-- It gives another digest than the one committed to. -/
  | digest (hlength : seed.length = verifier.config.seedLength) {digest : Bytes}
    (h : verifier.regenerate seed = .ok digest) (hne : commitments[index]? ≠ some digest) :
    SeedFails verifier commitments index seed (.cheatAttempt index)

/-- What a garbled circuit handed over for an instance has to fulfil. -/
structure TablesPass (verifier : Verifier) (commitments : List Bytes) (index : Nat)
    (garbled : GarbledCircuit) : Prop where
  /-- There is a slot for every gate. -/
  size : garbled.tables.size = verifier.circuit.gateCount
  /-- The input wires are those of the circuit. -/
  inputs : garbled.inputs = verifier.circuit.inputs
  /-- So are the output wires. -/
  outputs : garbled.outputs = verifier.circuit.outputs
  /-- No slot is empty. -/
  complete : ∀ slot ∈ garbled.tables.slots, slot.isSome = true
  /-- Exactly the output wires can be decoded. -/
  decoding : ∀ wire, wire ∈ verifier.circuit.outputs ↔ (garbled.decoding.get? wire).isSome = true
  /-- The tables put together have the digest that was committed to. -/
  digest : commitments[index]? = some (verifier.config.hash.digest garbled.tables.present.flatten)

/-- What the audit of a revealed seed comes to. -/
def seedVerdict (verifier : Verifier) (commitments : List Bytes) (index : Nat) (seed : Bytes) :
    Except ExchangeError Unit :=
  if seed.length ≠ verifier.config.seedLength then
    .error (.cheatAttempt index)
  else
    match verifier.regenerate seed with
    | .error cause => .error (.garble cause)
    | .ok digest =>
      if commitments.getD index [] = digest then .ok () else .error (.cheatAttempt index)

/-- What the audit of a garbled circuit comes to. -/
def evaluatedVerdict (verifier : Verifier) (commitments : List Bytes) (index : Nat)
    (garbled : GarbledCircuit) : Except ExchangeError Unit :=
  if garbled.tables.size = verifier.circuit.gateCount ∧ garbled.inputs = verifier.circuit.inputs ∧
      garbled.outputs = verifier.circuit.outputs ∧ garbled.isGarbled = true ∧
      commitments.getD index [] = verifier.config.hash.digest garbled.tables.present.flatten then
    .ok ()
  else
    .error (.cheatAttempt index)

/-- What is refused unless a check accepts has the outcome of the check for its own. -/
theorem yields_unless {inOrder : Workspace StreamGenerator → Prop} {check : AuditStep Bool}
    {outcome : Except ExchangeError Bool} (h : Yields inOrder check outcome) (e : ExchangeError) :
    Yields inOrder (do let accepted ← check; if !accepted then throw e)
      (do let accepted ← outcome; if accepted then .ok () else .error e) := by
  apply h.bind
  intro accepted
  cases accepted
  · exact Yields.throw e
  · exact Yields.pure ()

/-- The audit of a seed comes to what it comes to alone. -/
theorem yields_auditSeed (verifier : Verifier) (commitments : List Bytes) (index : Nat)
    (seed : Bytes) :
    Yields verifier.config.Fits (verifier.auditSeed commitments (index, seed))
      (verifier.seedVerdict commitments index seed) := by
  unfold auditSeed seedVerdict
  by_cases hlength : seed.length = verifier.config.seedLength
  · have hcheck := ((verifier.yields_regenerate seed).bind fun computed =>
      Yields.pure (digestsMatch (commitments.getD index []) computed)).adapt ExchangeError.garble
    have haudit := yields_unless hcheck (.cheatAttempt index)
    simp only [if_neg (not_not_intro hlength)]
    cases hregenerate : verifier.regenerate seed with
    | error cause =>
      rw [hregenerate] at haudit
      exact haudit
    | ok digest =>
      rw [hregenerate] at haudit
      change Yields _ _ (if digestsMatch _ _ then _ else _) at haudit
      simp only [digestsMatch_iff] at haudit
      exact haudit
  · simp only [if_pos hlength]
    exact Yields.throw _

/-- Tables are hashed as they would be alone, whatever was hashed before. -/
theorem yields_auditTables (config : GarblingConfig) (garbled : GarbledCircuit) (committed : Bytes) :
    Yields config.Fits (auditTables garbled committed)
      (.ok (digestsMatch committed (config.hash.digest garbled.tables.present.flatten))) := by
  intro workspace hfits
  have hdigest : (workspace.hasher.updateAll garbled.tables.present).peek =
      config.hash.digest garbled.tables.present.flatten := by
    rw [hfits.hasher, Hasher.peek_updateAll_new]
  have hreset : (workspace.hasher.updateAll garbled.tables.present).reset = .new config.hash := by
    rw [Hasher.reset_updateAll, hfits.hasher]
    rfl
  refine ⟨⟨workspace.generator, .new config.hash⟩, ⟨hfits.algorithm, rfl⟩, ?_⟩
  rw [← hdigest, ← hreset]
  rfl

/-- The audit of a garbled circuit comes to what it comes to alone. -/
theorem yields_auditEvaluated (verifier : Verifier) (commitments : List Bytes) (index : Nat)
    (garbled : GarbledCircuit) :
    Yields verifier.config.Fits (verifier.auditEvaluated commitments (index, garbled))
      (verifier.evaluatedVerdict commitments index garbled) := by
  unfold auditEvaluated evaluatedVerdict
  by_cases hshape : garbled.tables.size = verifier.circuit.gateCount ∧
      garbled.inputs = verifier.circuit.inputs ∧ garbled.outputs = verifier.circuit.outputs ∧
      garbled.isGarbled = true
  · have haudit := yields_unless
      (yields_auditTables verifier.config garbled (commitments.getD index [])) (.cheatAttempt index)
    change Yields _ _ (if digestsMatch _ _ then _ else _) at haudit
    simp only [digestsMatch_iff] at haudit
    simp only [hshape, not_true_eq_false, and_self, true_and, ite_false]
    exact haudit
  · simp only [if_pos hshape]
    rw [if_neg]
    · exact Yields.throw _
    · rintro ⟨hsize, hinputs, houtputs, hgarbled, _⟩
      exact hshape ⟨hsize, hinputs, houtputs, hgarbled⟩

/-- The commitment of an instance that there is. -/
theorem getD_commitments_eq_iff (hindex : index < commitments.length) {digest : Bytes} :
    commitments.getD index [] = digest ↔ commitments[index]? = some digest := by
  rw [List.getD_eq_getElem?_getD, List.getElem?_eq_getElem hindex, Option.getD_some,
    Option.some.injEq]

/-- Where there is a commitment, a seed is accepted exactly when it passes. -/
theorem seedVerdict_eq_ok_iff (hindex : index < commitments.length) :
    verifier.seedVerdict commitments index seed = .ok () ↔
      verifier.SeedPasses commitments index seed := by
  unfold seedVerdict
  constructor
  · intro h
    split_ifs at h with hlength
    rw [not_not] at hlength
    split at h
    · cases h
    · rename_i digest hdigest
      split_ifs at h with hcommitted
      exact ⟨hlength, digest, hdigest, (getD_commitments_eq_iff hindex).mp hcommitted⟩
  · rintro ⟨hlength, digest, hdigest, hcommitted⟩
    simp only [if_neg (not_not_intro hlength), hdigest]
    exact if_pos ((getD_commitments_eq_iff hindex).mpr hcommitted)

/-- Otherwise it is refused for the first reason that there is. -/
theorem seedVerdict_eq_error_iff (hindex : index < commitments.length) {e : ExchangeError} :
    verifier.seedVerdict commitments index seed = .error e ↔
      verifier.SeedFails commitments index seed e := by
  unfold seedVerdict
  constructor
  · intro h
    split_ifs at h with hlength
    · cases h
      exact .length hlength
    · rw [not_not] at hlength
      split at h
      · rename_i cause hcause
        cases h
        exact .garbling hlength hcause
      · rename_i digest hdigest
        split_ifs at h with hcommitted
        cases h
        exact .digest hlength hdigest (mt (getD_commitments_eq_iff hindex).mpr hcommitted)
  · intro h
    cases h with
    | length hlength => exact if_pos hlength
    | garbling hlength hcause => simp only [if_neg (not_not_intro hlength), hcause]
    | digest hlength hdigest hne =>
      simp only [if_neg (not_not_intro hlength), hdigest]
      exact if_neg (mt (getD_commitments_eq_iff hindex).mp hne)

/-- Where there is a commitment, a garbled circuit is accepted exactly when it passes. -/
theorem evaluatedVerdict_eq_ok_iff (hindex : index < commitments.length) :
    verifier.evaluatedVerdict commitments index garbled = .ok () ↔
      verifier.TablesPass commitments index garbled := by
  unfold evaluatedVerdict
  constructor
  · intro h
    split_ifs at h with hpass
    obtain ⟨hsize, hinputs, houtputs, hgarbled, hdigest⟩ := hpass
    obtain ⟨hcomplete, hdecoding⟩ := garbled.isGarbled_iff.mp hgarbled
    rw [houtputs] at hdecoding
    exact ⟨hsize, hinputs, houtputs, hcomplete, hdecoding,
      (getD_commitments_eq_iff hindex).mp hdigest⟩
  · rintro ⟨hsize, hinputs, houtputs, hcomplete, hdecoding, hdigest⟩
    rw [← houtputs] at hdecoding
    exact if_pos ⟨hsize, hinputs, houtputs, garbled.isGarbled_iff.mpr ⟨hcomplete, hdecoding⟩,
      (getD_commitments_eq_iff hindex).mpr hdigest⟩

/-- Otherwise the instance is named. -/
theorem evaluatedVerdict_eq_error_iff (hindex : index < commitments.length) {e : ExchangeError} :
    verifier.evaluatedVerdict commitments index garbled = .error e ↔
      ¬verifier.TablesPass commitments index garbled ∧ e = .cheatAttempt index := by
  rw [← evaluatedVerdict_eq_ok_iff hindex]
  unfold evaluatedVerdict
  split_ifs with hpass
  · simp
  · simp [eq_comm]

/-- An opening is accepted: it fits, and all that it reveals passes. -/
structure Accepts (verifier : Verifier) (commitments : List Bytes) (checks : List Nat)
    (opening : Opening) : Prop where
  /-- The opening fits the check list and the number of commitments. -/
  fits : opening.Fits checks commitments.length
  /-- Every seed passes. -/
  seeds : ∀ index seed, opening.seeds[index]? = some seed →
    verifier.SeedPasses commitments index seed
  /-- Every garbled circuit passes. -/
  evaluated : ∀ index garbled, opening.evaluated[index]? = some garbled →
    verifier.TablesPass commitments index garbled

/-- An opening is refused, and why: nothing that comes before in the order of the checks fails. -/
inductive Refuses (verifier : Verifier) (commitments : List Bytes) (checks : List Nat)
    (opening : Opening) : ExchangeError → Prop where
  /-- The opening does not fit, whatever it reveals. -/
  | shape {fault : OpeningFault} (h : opening.Misfits checks commitments.length fault) :
    Refuses verifier commitments checks opening (.invalidOpening fault)
  /-- The opening fits, and the seed is the first that does not pass. -/
  | seed {index : Nat} {seed : Bytes} {e : ExchangeError}
    (hfits : opening.Fits checks commitments.length)
    (hseed : opening.seeds[index]? = some seed)
    (hfails : verifier.SeedFails commitments index seed e)
    (hbefore : ∀ earlier < index, ∀ other, opening.seeds[earlier]? = some other →
      verifier.SeedPasses commitments earlier other) :
    Refuses verifier commitments checks opening e
  /-- The opening fits, all seeds pass, and the garbled circuit is the first that does not. -/
  | evaluated {index : Nat} {garbled : GarbledCircuit}
    (hfits : opening.Fits checks commitments.length)
    (hseeds : ∀ index seed, opening.seeds[index]? = some seed →
      verifier.SeedPasses commitments index seed)
    (hgarbled : opening.evaluated[index]? = some garbled)
    (hfails : ¬verifier.TablesPass commitments index garbled)
    (hbefore : ∀ earlier < index, ∀ other, opening.evaluated[earlier]? = some other →
      verifier.TablesPass commitments earlier other) :
    Refuses verifier commitments checks opening (.cheatAttempt index)

/-- An audit checks how the opening fits and then comes to a verdict on every entry of it. -/
theorem audit_eq (verifier : Verifier) (commitments : List Bytes) (checks : List Nat)
    (opening : Opening) :
    verifier.audit commitments checks opening = (do
      (do let set ← checkSet checks commitments.length; opening.checkShape set commitments.length)
      opening.seeds.toList.forM fun (index, seed) => verifier.seedVerdict commitments index seed
      opening.evaluated.toList.forM fun (index, garbled) =>
        verifier.evaluatedVerdict commitments index garbled
      return opening.evaluated) := by
  have hseeds := Yields.forM (fun revealed : Nat × Bytes =>
    verifier.yields_auditSeed commitments revealed.1 revealed.2) opening.seeds.toList
  have hevaluated := Yields.forM (fun revealed : Nat × GarbledCircuit =>
    verifier.yields_auditEvaluated commitments revealed.1 revealed.2) opening.evaluated.toList
  let steps : AuditStep Unit := do
    opening.seeds.toList.forM (verifier.auditSeed commitments)
    opening.evaluated.toList.forM (verifier.auditEvaluated commitments)
  have hsteps : (steps.run verifier.config.workspace).1 = _ :=
    (hseeds.bind fun _ => hevaluated).outcome_eq verifier.config.fits_workspace
  unfold audit
  change (do
    let set ← checkSet checks commitments.length
    opening.checkShape set commitments.length
    let _ ← (steps.run verifier.config.workspace).1
    return opening.evaluated) = _
  rw [hsteps]
  simp only [bind_assoc]

/-- The seeds of an opening that fits are accepted exactly when all of them pass. -/
theorem seedVerdicts_eq_ok_iff (hfits : opening.Fits checks commitments.length) :
    (opening.seeds.toList.forM fun (index, seed) => verifier.seedVerdict commitments index seed) =
      .ok () ↔ ∀ index seed, opening.seeds[index]? = some seed →
        verifier.SeedPasses commitments index seed := by
  apply InstanceMap.forM_eq_ok_iff
  intro index seed hseed
  exact seedVerdict_eq_ok_iff (hfits.lt_of_getElem?_seeds hseed)

/-- Otherwise the first that does not pass decides. -/
theorem seedVerdicts_eq_error_iff (hfits : opening.Fits checks commitments.length)
    {e : ExchangeError} :
    (opening.seeds.toList.forM fun (index, seed) => verifier.seedVerdict commitments index seed) =
      .error e ↔ ∃ index seed, opening.seeds[index]? = some seed ∧
        verifier.SeedFails commitments index seed e ∧
        ∀ earlier < index, ∀ other, opening.seeds[earlier]? = some other →
          verifier.SeedPasses commitments earlier other := by
  apply InstanceMap.forM_eq_error_iff
  · intro index seed hseed
    exact seedVerdict_eq_ok_iff (hfits.lt_of_getElem?_seeds hseed)
  · intro index seed hseed
    exact seedVerdict_eq_error_iff (hfits.lt_of_getElem?_seeds hseed)

/-- The garbled circuits of an opening that fits are accepted exactly when all of them pass. -/
theorem evaluatedVerdicts_eq_ok_iff (hfits : opening.Fits checks commitments.length) :
    (opening.evaluated.toList.forM fun (index, garbled) =>
      verifier.evaluatedVerdict commitments index garbled) = .ok () ↔
        ∀ index garbled, opening.evaluated[index]? = some garbled →
          verifier.TablesPass commitments index garbled := by
  apply InstanceMap.forM_eq_ok_iff
  intro index garbled hgarbled
  exact evaluatedVerdict_eq_ok_iff (hfits.lt_of_getElem?_evaluated hgarbled)

/-- Otherwise the first that does not pass is named. -/
theorem evaluatedVerdicts_eq_error_iff (hfits : opening.Fits checks commitments.length)
    {e : ExchangeError} :
    (opening.evaluated.toList.forM fun (index, garbled) =>
      verifier.evaluatedVerdict commitments index garbled) = .error e ↔
        ∃ index garbled, opening.evaluated[index]? = some garbled ∧
          (¬verifier.TablesPass commitments index garbled ∧ e = .cheatAttempt index) ∧
          ∀ earlier < index, ∀ other, opening.evaluated[earlier]? = some other →
            verifier.TablesPass commitments earlier other := by
  apply InstanceMap.forM_eq_error_iff
  · intro index garbled hgarbled
    exact evaluatedVerdict_eq_ok_iff (hfits.lt_of_getElem?_evaluated hgarbled)
  · intro index garbled hgarbled
    exact evaluatedVerdict_eq_error_iff (hfits.lt_of_getElem?_evaluated hgarbled)

/-- An audit succeeds exactly for an opening that is accepted, and hands on its garbled circuits. -/
theorem audit_eq_ok_iff {result : InstanceMap GarbledCircuit} :
    verifier.audit commitments checks opening = .ok result ↔
      verifier.Accepts commitments checks opening ∧ result = opening.evaluated := by
  rw [audit_eq, bind_eq_ok_iff]
  constructor
  · rintro ⟨⟨⟩, hshape, hrest⟩
    have hfits := Opening.fits_iff.mp hshape
    obtain ⟨⟨⟩, hseeds, hrest⟩ := bind_eq_ok_iff.mp hrest
    obtain ⟨⟨⟩, hevaluated, hresult⟩ := bind_eq_ok_iff.mp hrest
    cases hresult
    exact ⟨⟨hfits, (seedVerdicts_eq_ok_iff hfits).mp hseeds,
      (evaluatedVerdicts_eq_ok_iff hfits).mp hevaluated⟩, rfl⟩
  · rintro ⟨⟨hfits, hseeds, hevaluated⟩, rfl⟩
    exact ⟨(), Opening.fits_iff.mpr hfits, bind_eq_ok_iff.mpr
      ⟨(), (seedVerdicts_eq_ok_iff hfits).mpr hseeds, bind_eq_ok_iff.mpr
        ⟨(), (evaluatedVerdicts_eq_ok_iff hfits).mpr hevaluated, rfl⟩⟩⟩

/-- An audit fails exactly with the cause for which an opening is refused. -/
theorem audit_eq_error_iff {e : ExchangeError} :
    verifier.audit commitments checks opening = .error e ↔
      verifier.Refuses commitments checks opening e := by
  rw [audit_eq, bind_eq_error_iff]
  constructor
  · rintro (hshape | ⟨⟨⟩, hshape, hrest⟩)
    · obtain ⟨fault, hmisfits, rfl⟩ := Opening.misfits_iff.mp hshape
      exact .shape hmisfits
    · have hfits := Opening.fits_iff.mp hshape
      rcases bind_eq_error_iff.mp hrest with hseeds | ⟨⟨⟩, hseeds, hrest⟩
      · obtain ⟨index, seed, hseed, hfails, hbefore⟩ := (seedVerdicts_eq_error_iff hfits).mp hseeds
        exact .seed hfits hseed hfails hbefore
      · rcases bind_eq_error_iff.mp hrest with hevaluated | ⟨_, _, hreturn⟩
        · obtain ⟨index, garbled, hgarbled, ⟨hfails, rfl⟩, hbefore⟩ :=
            (evaluatedVerdicts_eq_error_iff hfits).mp hevaluated
          exact .evaluated hfits ((seedVerdicts_eq_ok_iff hfits).mp hseeds) hgarbled hfails hbefore
        · cases hreturn
  · intro h
    cases h with
    | shape hmisfits => exact Or.inl (Opening.misfits_iff.mpr ⟨_, hmisfits, rfl⟩)
    | seed hfits hseed hfails hbefore =>
      exact Or.inr ⟨(), Opening.fits_iff.mpr hfits, bind_eq_error_iff.mpr (Or.inl
        ((seedVerdicts_eq_error_iff hfits).mpr ⟨_, _, hseed, hfails, hbefore⟩))⟩
    | evaluated hfits hseeds hgarbled hfails hbefore =>
      exact Or.inr ⟨(), Opening.fits_iff.mpr hfits, bind_eq_error_iff.mpr (Or.inr
        ⟨(), (seedVerdicts_eq_ok_iff hfits).mpr hseeds, bind_eq_error_iff.mpr (Or.inl
          ((evaluatedVerdicts_eq_error_iff hfits).mpr
            ⟨_, _, hgarbled, ⟨hfails, rfl⟩, hbefore⟩))⟩)⟩

/-- Whatever the configuration, the circuit, the commitments, the check list and the opening, an
audit decides its condition: it succeeds exactly for an opening that is accepted, and yields the
garbled circuits handed over as they are; it fails exactly with the first cause for a refusal, in
the order shape, seeds by index, garbled circuits by index. -/
theorem audit_decides (verifier : Verifier) (commitments : List Bytes) (checks : List Nat)
    (opening : Opening) :
    (∀ result, verifier.audit commitments checks opening = .ok result ↔
      verifier.Accepts commitments checks opening ∧ result = opening.evaluated) ∧
    ∀ e, verifier.audit commitments checks opening = .error e ↔
      verifier.Refuses commitments checks opening e :=
  ⟨fun _ => audit_eq_ok_iff, fun _ => audit_eq_error_iff⟩

end Verifier

end SeededGarbling
