import SeededGarbling.Proofs.Declared
import SeededGarbling.Proofs.Session

/-!
# Verdicts on a garbling

A digest can be checked against a seed or against tables, and the digest of tables can be taken anew.
What comes of one garbling gets the same verdict in all three ways, and a seed that cannot be garbled
from gets none. A hasher that holds nothing holds nothing behind an audit either, so it serves any
number of them, whatever they find.
-/

namespace SeededGarbling

namespace Audit

variable {γ : Type} [Generator γ] {algorithm : PrfAlgorithm} {circuit : Circuit} {seed : Bytes}
  {workspace prepared after : Workspace γ} {cause : GarbleError} {cipher : GateCipher}
  {result : Garbling}

/-- The check of a seed stops where garbling from it stops. -/
theorem run_checkSeed_of_refused
    (h : (Garbling.prepare algorithm circuit seed).run workspace = (.error cause, after))
    (committed : Bytes) :
    (checkSeed algorithm circuit seed committed).run workspace = (.error cause, after) := by
  rw [checkSeed_eq_map, run_map, Garbling.run_digestOnly_of_refused h]
  rfl

/-- Otherwise it compares with the digest of what is garbled from it. -/
theorem run_checkSeed_of_prepared
    (h : (Garbling.prepare algorithm circuit seed).run workspace = (.ok cipher, prepared))
    (hmade : result.MadeBy cipher circuit workspace.hasher) (committed : Bytes) :
    (checkSeed algorithm circuit seed committed).run workspace =
      (.ok (decide (committed = result.digest)),
        ⟨prepared.generator, workspace.hasher.reset⟩) := by
  obtain ⟨tables, htables, _, hdigest⟩ := hmade.tables
  rw [checkSeed_eq_map, run_map, Garbling.run_digestOnly_of_prepared h htables, hdigest]
  rfl

end Audit

/-- The digest of a garbling is that of its tables behind what the hasher held. -/
theorem Garbling.MadeBy.digest_eq {result : Garbling} {cipher : GateCipher} {circuit : Circuit}
    {hasher : Hasher} (h : result.MadeBy cipher circuit hasher) :
    result.digest = result.tables.digestBehind hasher.algorithm hasher.pending.toList := by
  obtain ⟨tables, _, htables, hdigest⟩ := h.tables
  have hpeek := hasher.peek_updateAll_present result.tables
  rw [htables, TableSet.present_ofTables, ← htables, ← hdigest] at hpeek
  exact hpeek

/-- Whether a step is an audit. -/
def Step.isAudit : Step → Bool
  | hashTables _ | checkSeed _ _ _ _ | checkTables _ _ => true
  | _ => false

section Series

variable {γ : Type} [Generator γ]

/-- Carries out audits one after the other with one hasher. For each there is a generator, be it a new
one or one that was used before. -/
def auditSeries : List (γ × Step) → Hasher → List (Event γ)
  | [], _ => []
  | (generator, step) :: audits, hasher =>
    let event := step.event ⟨generator, hasher⟩
    event :: auditSeries audits event.after.hasher

/-- There is an event for every audit. -/
theorem map_step_auditSeries (audits : List (γ × Step)) (hasher : Hasher) :
    (auditSeries audits hasher).map Event.step = audits.map Prod.snd := by
  induction audits generalizing hasher with
  | nil => rfl
  | cons audit audits ih => exact congrArg (audit.2 :: ·) (ih _)

/-- An audit leaves a hasher that holds nothing as it found it, whether it succeeds or fails. -/
theorem Step.hasher_event_of_isAudit {step : Step} (h : step.isAudit = true) (generator : γ)
    (hash : HashAlgorithm) : (step.event ⟨generator, .new hash⟩).after.hasher = .new hash := by
  cases step with
  | hashTables tables => rw [event, run_hashTables]; rfl
  | checkTables tables committed => rw [event, run_checkTables]; rfl
  | checkSeed algorithm circuit seed committed =>
    have hhasher := Garbling.hasher_run_prepare algorithm circuit seed
      (⟨generator, .new hash⟩ : Workspace γ)
    rw [event, run, run_map]
    rcases hprepare : (Garbling.prepare algorithm circuit seed).run
      (⟨generator, .new hash⟩ : Workspace γ) with ⟨cause | cipher, prepared⟩
    · rw [hprepare] at hhasher
      rw [Audit.run_checkSeed_of_refused hprepare]
      exact hhasher
    · obtain ⟨result, hmade, _⟩ := Garbling.run_garble_of_prepared hprepare
      rw [Audit.run_checkSeed_of_prepared hprepare hmade]
      rfl
  | _ => cases h

/-- So every audit in a series finds the hasher that the first one finds, and what holds of each of them
alone holds in the series. -/
theorem forall_mem_auditSeries {audits : List (γ × Step)} {hash : HashAlgorithm}
    {P : Event γ → Prop} (h : ∀ audit ∈ audits, audit.2.isAudit = true ∧
      P (audit.2.event ⟨audit.1, .new hash⟩)) : ∀ event ∈ auditSeries audits (.new hash), P event := by
  induction audits with
  | nil => exact fun event hevent => absurd hevent List.not_mem_nil
  | cons audit audits ih =>
    rw [List.forall_mem_cons] at h
    obtain ⟨⟨haudit, hevent⟩, hrest⟩ := h
    rw [auditSeries, List.forall_mem_cons, Step.hasher_event_of_isAudit haudit]
    exact ⟨hevent, ih hrest⟩

end Series

section Agreement

variable {γ δ : Type} [Generator γ] [Generator δ] {algorithm : PrfAlgorithm} {circuit : Circuit}
  {seed : Bytes} {hash : HashAlgorithm} {generator : γ} {other : δ} {after : Workspace γ}
  {cause : GarbleError} {result : Garbling}

/-- A seed that cannot be garbled from cannot be checked, for the same cause. -/
theorem Step.outcome_checkSeed_of_refused (hagree : Generator.Agree seed generator other)
    (h : (Garbling.garble algorithm circuit seed).run ⟨generator, .new hash⟩ = (.error cause, after))
    (committed : Bytes) :
    ((checkSeed algorithm circuit seed committed).event ⟨other, .new hash⟩).outcome =
      .error cause := by
  have hsame := Garbling.outcome_prepare_of_agree algorithm circuit hagree (.new hash) (.new hash)
  rw [Garbling.run_garble_eq_error_iff.mp h] at hsame
  rcases hprepare : (Garbling.prepare algorithm circuit seed).run
    (⟨other, .new hash⟩ : Workspace δ) with ⟨cause' | cipher, prepared⟩
  · rw [hprepare] at hsame
    cases hsame
    rw [event, run, run_map, Audit.run_checkSeed_of_refused hprepare]
    rfl
  · rw [hprepare] at hsame
    cases hsame

/-- Any other is checked against the digest of what was garbled from it. -/
theorem Step.outcome_checkSeed_of_garbled (hagree : Generator.Agree seed generator other)
    (h : (Garbling.garble algorithm circuit seed).run ⟨generator, .new hash⟩ = (.ok result, after))
    (committed : Bytes) :
    ((checkSeed algorithm circuit seed committed).event ⟨other, .new hash⟩).outcome =
      .ok (.verdict (decide (committed = result.digest))) := by
  obtain ⟨cipher, prepared, hprepared, hmade, _⟩ := Garbling.madeBy_of_run_garble h
  have hsame := Garbling.outcome_prepare_of_agree algorithm circuit hagree (.new hash) (.new hash)
  rw [hprepared] at hsame
  rcases hprepare : (Garbling.prepare algorithm circuit seed).run
    (⟨other, .new hash⟩ : Workspace δ) with ⟨cause' | cipher', prepared'⟩
  · rw [hprepare] at hsame
    cases hsame
  · rw [hprepare] at hsame
    cases hsame
    rw [event, run, run_map, Audit.run_checkSeed_of_prepared hprepare hmade]
    rfl

end Agreement

/-- Whatever was garbled, and however many audits share one hasher that held nothing: if garbling fails,
every check of the seed fails with the same cause. If it succeeds, the check of its seed and the check
of its tables accept exactly its digest and reject every other byte string, and the digest of its
tables is this digest. The generators that the audits are done with need only agree with that of the
garbler on the seed. -/
theorem audits_agree {γ δ : Type} [Generator γ] [Generator δ] (algorithm : PrfAlgorithm)
    (circuit : Circuit) (seed : Bytes) (hash : HashAlgorithm) (generator : γ)
    {audits : List (δ × Step)}
    (h : ∀ audit ∈ audits, audit.2.isAudit = true ∧ Generator.Agree seed generator audit.1) :
    (auditSeries audits (.new hash)).map Event.step = audits.map Prod.snd ∧
    (∀ cause after,
      (Garbling.garble algorithm circuit seed).run ⟨generator, .new hash⟩ = (.error cause, after) →
        ∀ event ∈ auditSeries audits (.new hash), ∀ committed,
          event.step = .checkSeed algorithm circuit seed committed →
            event.outcome = .error cause) ∧
    ∀ result after,
      (Garbling.garble algorithm circuit seed).run ⟨generator, .new hash⟩ = (.ok result, after) →
        ∀ event ∈ auditSeries audits (.new hash),
          (∀ committed, event.step = .checkSeed algorithm circuit seed committed →
            event.outcome = .ok (.verdict (decide (committed = result.digest)))) ∧
          (∀ committed, event.step = .checkTables result.tables committed →
            event.outcome = .ok (.verdict (decide (committed = result.digest)))) ∧
          (event.step = .hashTables result.tables → event.outcome = .ok (.digest result.digest)) := by
  refine ⟨map_step_auditSeries audits _, ?_, ?_⟩
  · intro cause after hgarble
    apply forall_mem_auditSeries
    intro audit haudit
    obtain ⟨hisAudit, hagree⟩ := h audit haudit
    refine ⟨hisAudit, ?_⟩
    intro committed hstep
    change audit.2 = _ at hstep
    rw [hstep, Step.outcome_checkSeed_of_refused hagree hgarble]
  · intro result after hgarble
    have hdigest : result.digest = result.tables.digestBehind hash [] := by
      obtain ⟨_, _, _, hmade, _⟩ := Garbling.madeBy_of_run_garble hgarble
      exact hmade.digest_eq
    apply forall_mem_auditSeries
    intro audit haudit
    obtain ⟨hisAudit, hagree⟩ := h audit haudit
    refine ⟨hisAudit, ?_, ?_, ?_⟩
    · intro committed hstep
      change audit.2 = _ at hstep
      rw [hstep, Step.outcome_checkSeed_of_garbled hagree hgarble]
    · intro committed hstep
      change audit.2 = _ at hstep
      rw [hstep, Step.event, Step.run_checkTables, hdigest]
      rfl
    · intro hstep
      change audit.2 = _ at hstep
      rw [hstep, Step.event, Step.run_hashTables, hdigest]
      rfl

/-- Three audits with one hasher: no bytes are rejected, and behind that the digest of the garbling is
accepted twice. One of the generators was in use before. -/
theorem audits_agree_negatedSum : ∃ seed result after rejected accepted repeated,
    (Garbling.garble .hmacSha256 .negatedSum seed).run
      (⟨.new .chacha20, .new .sha256⟩ : Workspace StreamGenerator) = (.ok result, after) ∧
    auditSeries [((⟨.chacha20, some ⟨[], 5⟩⟩ : StreamGenerator),
        .checkSeed .hmacSha256 .negatedSum seed []),
      (.new .chacha20, .checkTables result.tables result.digest),
      (.new .chacha20, .checkSeed .hmacSha256 .negatedSum seed result.digest)] (.new .sha256) =
        [rejected, accepted, repeated] ∧
    rejected.outcome = .ok (.verdict false) ∧ accepted.outcome = .ok (.verdict true) ∧
    repeated.outcome = .ok (.verdict true) := by
  let seed : Bytes := List.replicate 32 7
  let fresh : Workspace StreamGenerator := ⟨.new .chacha20, .new .sha256⟩
  have hseed : seed.length = fresh.generator.algorithm.seedLength := List.length_replicate
  obtain ⟨result, after, hgarble⟩ :=
    Garbling.exists_run_garble_stream .hmacSha256 Circuit.validate_negatedSum hseed
  obtain ⟨_, _, _, hmade, _⟩ := Garbling.madeBy_of_run_garble hgarble
  have hempty : [] ≠ result.digest := by
    intro hnil
    have hlength := hmade.digest_eq.symm.trans hnil.symm |> congrArg List.length
    rw [TableSet.digestBehind, HashAlgorithm.length_digest] at hlength
    cases hlength
  let used : StreamGenerator := ⟨.chacha20, some ⟨[], 5⟩⟩
  let first : Step := .checkSeed .hmacSha256 .negatedSum seed []
  let second : Step := .checkTables result.tables result.digest
  let third : Step := .checkSeed .hmacSha256 .negatedSum seed result.digest
  have haudits : ∀ audit ∈ [(used, first), (.new .chacha20, second), (.new .chacha20, third)],
      audit.2.isAudit = true ∧
        Generator.Agree seed (StreamGenerator.new .chacha20) audit.1 := by
    rw [List.forall_mem_cons, List.forall_mem_cons, List.forall_mem_cons]
    exact ⟨⟨rfl, StreamGenerator.agree_of_algorithm_eq rfl seed⟩,
      ⟨rfl, StreamGenerator.agree_of_algorithm_eq rfl seed⟩,
      ⟨rfl, StreamGenerator.agree_of_algorithm_eq rfl seed⟩,
      fun audit haudit => absurd haudit List.not_mem_nil⟩
  obtain ⟨_, _, hverdicts⟩ := audits_agree .hmacSha256 .negatedSum seed .sha256 _ haudits
  have hevents := hverdicts result _ hgarble
  let rejected := first.event ⟨used, .new .sha256⟩
  let accepted := second.event ⟨StreamGenerator.new .chacha20, rejected.after.hasher⟩
  let repeated := third.event ⟨StreamGenerator.new .chacha20, accepted.after.hasher⟩
  refine ⟨seed, result, after, rejected, accepted, repeated, hgarble, rfl, ?_, ?_, ?_⟩
  · obtain ⟨hseed, _⟩ := hevents rejected List.mem_cons_self
    rw [hseed [] rfl, decide_eq_false hempty]
  · obtain ⟨_, htables, _⟩ := hevents accepted (List.mem_cons_of_mem _ List.mem_cons_self)
    rw [htables result.digest rfl, decide_eq_true rfl]
  · obtain ⟨hseed, _⟩ := hevents repeated
      (List.mem_cons_of_mem _ (List.mem_cons_of_mem _ List.mem_cons_self))
    rw [hseed result.digest rfl, decide_eq_true rfl]

end SeededGarbling
