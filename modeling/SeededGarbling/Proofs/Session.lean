import SeededGarbling.Proofs.Declared
import SeededGarbling.Proofs.Scratch

/-!
# Sessions

In a session one generator and one hasher serve many steps, of which any may fail. The invariant is
that the hasher holds exactly the bytes that were absorbed since the last digest. Every step keeps it,
and apart from these bytes no step sees what was done before.
-/

namespace SeededGarbling

/-- What can be done with a shared generator and a shared hasher. -/
inductive Step where
  /-- To absorb bytes. -/
  | update (data : Bytes)
  /-- To take the digest of what was absorbed. -/
  | finalize
  /-- To read from the generator. -/
  | fill (length : Nat)
  /-- To garble a circuit. -/
  | garble (algorithm : PrfAlgorithm) (circuit : Circuit) (seed : Bytes)
  /-- To garble a circuit into a garbled circuit. -/
  | install (held : GarbledCircuit) (algorithm : PrfAlgorithm) (circuit : Circuit) (seed : Bytes)
  /-- To garble a circuit for the digest alone. -/
  | digestOnly (algorithm : PrfAlgorithm) (circuit : Circuit) (seed : Bytes)
  /-- To take the digest of tables. -/
  | hashTables (tables : TableSet)
  /-- To check a seed against a commitment. -/
  | checkSeed (algorithm : PrfAlgorithm) (circuit : Circuit) (seed committed : Bytes)
  /-- To check tables against a commitment. -/
  | checkTables (tables : TableSet) (committed : Bytes)

/-- What a step yields. -/
inductive Answer where
  /-- Nothing. -/
  | done
  /-- Bytes of the generator. -/
  | bytes (content : Bytes)
  /-- A digest. -/
  | digest (digest : Bytes)
  /-- The result of garbling. -/
  | garbling (result : Garbling)
  /-- A garbled circuit, and what its garbler keeps. -/
  | installed (garbled : GarbledCircuit) (values : CreationValues)
  /-- Whether a check accepts. -/
  | verdict (accepted : Bool)

/-- A step of the hasher. -/
def Run.onHasher {γ α : Type} (step : Hasher → α × Hasher) : Run γ α :=
  modifyGet fun workspace =>
    let (a, hasher) := step workspace.hasher
    (a, { workspace with hasher := hasher })

/-- It takes the place of the hasher. -/
theorem Run.run_onHasher {γ α : Type} (step : Hasher → α × Hasher) (workspace : Workspace γ) :
    (onHasher step).run workspace = (.ok (step workspace.hasher).1,
      { workspace with hasher := (step workspace.hasher).2 }) := rfl

namespace Step

/-- Carries out a step. -/
def run {γ : Type} [Generator γ] : Step → Run γ Answer
  | update data => (fun _ => .done) <$> Run.absorb [data]
  | finalize => .digest <$> Run.finalize
  | fill length => (fun content => .bytes content.toList) <$> Run.onGenerator (Generator.fill length)
  | garble algorithm circuit seed => .garbling <$> Garbling.garble algorithm circuit seed
  | install held algorithm circuit seed =>
    (fun (garbled, values) => .installed garbled values) <$> held.garble algorithm circuit seed
  | digestOnly algorithm circuit seed => .digest <$> Garbling.digestOnly algorithm circuit seed
  | hashTables tables => .digest <$> Run.onHasher fun hasher => Audit.hashTables hasher tables
  | checkSeed algorithm circuit seed committed =>
    .verdict <$> Audit.checkSeed algorithm circuit seed committed
  | checkTables tables committed =>
    .verdict <$> Run.onHasher fun hasher => Audit.checkTables hasher tables committed

/-- Whether a step that succeeds has computed a digest. -/
def digests : Step → Bool
  | update _ | fill _ => false
  | _ => true

/-- The seed that a step garbles from. -/
def seed? : Step → Option Bytes
  | garble _ _ seed | install _ _ _ seed | digestOnly _ _ seed | checkSeed _ _ seed _ => some seed
  | _ => none

/-- The bytes that a step hands over to be absorbed. -/
def absorbs : Step → Bytes
  | update data => data
  | _ => []

variable (prg : PrgAlgorithm) (hash : HashAlgorithm) (pending : Bytes)

/-- What a step comes to if all garbling is done with a fresh generator and a fresh hasher, and every
digest is taken of the pending bytes and the tables in one go. What is read from the generator depends
on more. -/
def outcome? : Step → Option (Except GarbleError Answer)
  | update _ => some (.ok .done)
  | finalize => some (.ok (.digest (hash.digest pending)))
  | fill _ => none
  | garble algorithm circuit seed =>
    some ((fun result => .garbling (result.behind hash pending)) <$>
      Garbling.fromScratch prg hash algorithm circuit seed)
  | install held algorithm circuit seed =>
    some ((fun (garbled, values) => .installed garbled
        { values with digest := garbled.tables.digestBehind hash pending }) <$>
      held.fromScratch prg hash algorithm circuit seed)
  | digestOnly algorithm circuit seed =>
    some ((fun result => .digest (result.tables.digestBehind hash pending)) <$>
      Garbling.fromScratch prg hash algorithm circuit seed)
  | hashTables tables => some (.ok (.digest (tables.digestBehind hash pending)))
  | checkSeed algorithm circuit seed committed =>
    some ((fun result => .verdict (decide (committed = result.tables.digestBehind hash pending))) <$>
      Garbling.fromScratch prg hash algorithm circuit seed)
  | checkTables tables committed =>
    some (.ok (.verdict (decide (committed = tables.digestBehind hash pending))))

end Step

/-- A step that was carried out. -/
structure Event (γ : Type) where
  /-- The step. -/
  step : Step
  /-- What generator and hasher were before. -/
  before : Workspace γ
  /-- What came of it. -/
  outcome : Except GarbleError Answer
  /-- What generator and hasher are behind it. -/
  after : Workspace γ

section Histories

variable {γ : Type} [Generator γ]

/-- Carrying out a step is an event. -/
def Step.event (step : Step) (workspace : Workspace γ) : Event γ :=
  ⟨step, workspace, (step.run.run workspace).1, (step.run.run workspace).2⟩

/-- Carries out steps one after the other, the next one with what the last one left. -/
def history : List Step → Workspace γ → List (Event γ)
  | [], _ => []
  | step :: steps, workspace =>
    step.event workspace :: history steps (step.event workspace).after

end Histories

/-- The bytes pending behind an event: what it absorbed is added, a digest takes all, and a failure
leaves them. -/
def Event.pending {γ : Type} (before : Bytes) (event : Event γ) : Bytes :=
  match event.outcome with
  | .error _ => before
  | .ok _ => if event.step.digests then [] else before ++ event.step.absorbs

/-- The bytes that were absorbed since the last digest. -/
def pendingBehind {γ : Type} (before : Bytes) (events : List (Event γ)) : Bytes :=
  events.foldl Event.pending before

/-- What an event has to do with earlier ones: nothing but the pending bytes. -/
structure Event.Isolated (event : Event (Recorded StreamGenerator)) (prg : PrgAlgorithm)
    (hash : HashAlgorithm) (pending : Bytes) : Prop where
  /-- Its outcome is that of the step from scratch. -/
  outcome : ∀ outcome, event.step.outcome? prg hash pending = some outcome → event.outcome = outcome
  /-- A digest leaves the hasher fresh. -/
  finished : ∀ answer, event.outcome = .ok answer → event.step.digests = true →
    event.after.hasher = .new hash
  /-- A failure leaves the pending bytes. -/
  refused : ∀ cause, event.outcome = .error cause → event.after.hasher = event.before.hasher ∧
    event.after.hasher.pending.toList = pending
  /-- Garbling asks the generator for a seed and a key. -/
  asked : ∀ answer seed, event.outcome = .ok answer → event.step.seed? = some seed →
    event.after.generator.calls = event.before.generator.calls ++ #[.seed seed.length, .fill 32]

/-- Generator and hasher have the given algorithms, and the given bytes are pending. -/
structure Workspace.Holds (workspace : Workspace (Recorded StreamGenerator)) (prg : PrgAlgorithm)
    (hash : HashAlgorithm) (pending : Bytes) : Prop where
  /-- The algorithm of the generator. -/
  generator : workspace.generator.generator.algorithm = prg
  /-- The algorithm of the hasher. -/
  hasher : workspace.hasher.algorithm = hash
  /-- The pending bytes. -/
  pending : workspace.hasher.pending.toList = pending

namespace Step

variable {step : Step} {workspace : Workspace (Recorded StreamGenerator)} {prg : PrgAlgorithm}
  {hash : HashAlgorithm} {pending : Bytes}

/-- A step sees of earlier ones only the pending bytes, and leaves those that it should. -/
structure Keeps (step : Step) (workspace : Workspace (Recorded StreamGenerator)) (prg : PrgAlgorithm)
    (hash : HashAlgorithm) (pending : Bytes) : Prop where
  /-- The step is isolated. -/
  isolated : (step.event workspace).Isolated prg hash pending
  /-- The next step finds what this one left. -/
  holds : (step.event workspace).after.Holds prg hash ((step.event workspace).pending pending)

/-- A failure keeps the invariant if it leaves the hasher and the algorithm alone. -/
theorem keeps_of_error (h : workspace.Holds prg hash pending) {cause : GarbleError}
    {after : Workspace (Recorded StreamGenerator)}
    (hrun : step.run.run workspace = (.error cause, after))
    (hgenerator : after.generator.generator.algorithm = prg)
    (hhasher : after.hasher = workspace.hasher)
    (houtcome : ∀ outcome, step.outcome? prg hash pending = some outcome → outcome = .error cause) :
    step.Keeps workspace prg hash pending := by
  have hevent : step.event workspace = ⟨step, workspace, .error cause, after⟩ := by
    rw [event, hrun]
  constructor
  · rw [hevent]
    constructor
    · intro outcome hother
      exact (houtcome outcome hother).symm
    · intro answer hanswer
      cases hanswer
    · intro _ _
      refine ⟨hhasher, ?_⟩
      rw [hhasher]
      exact h.pending
    · intro answer seed hanswer
      cases hanswer
  · rw [hevent]
    refine ⟨hgenerator, ?_, ?_⟩
    · rw [hhasher]
      exact h.hasher
    · rw [hhasher]
      exact h.pending

/-- A success keeps it if the hasher is left with nothing by a digest, and otherwise with what is
absorbed. -/
theorem keeps_of_ok (h : workspace.Holds prg hash pending) {answer : Answer}
    {after : Workspace (Recorded StreamGenerator)}
    (hrun : step.run.run workspace = (.ok answer, after))
    (hgenerator : after.generator.generator.algorithm = prg)
    (hhasher : after.hasher =
      if step.digests then workspace.hasher.reset else workspace.hasher.update step.absorbs)
    (houtcome : ∀ outcome, step.outcome? prg hash pending = some outcome → outcome = .ok answer)
    (hasked : ∀ seed, step.seed? = some seed → after.generator.calls =
      workspace.generator.calls ++ #[.seed seed.length, .fill 32]) :
    step.Keeps workspace prg hash pending := by
  have hevent : step.event workspace = ⟨step, workspace, .ok answer, after⟩ := by
    rw [event, hrun]
  have hreset : workspace.hasher.reset = .new hash := by
    rw [← h.hasher]
    rfl
  constructor
  · rw [hevent]
    constructor
    · intro outcome hother
      exact (houtcome outcome hother).symm
    · intro _ _ hdigests
      change step.digests = true at hdigests
      rw [if_pos hdigests] at hhasher
      exact hhasher.trans hreset
    · intro cause hcause
      cases hcause
    · intro _ seed _ hseed
      exact hasked seed hseed
  · rw [hevent]
    refine ⟨hgenerator, ?_, ?_⟩
    · by_cases hdigests : step.digests = true
      · rw [hhasher, if_pos hdigests, hreset]
        rfl
      · rw [hhasher, if_neg hdigests, Hasher.algorithm_update, h.hasher]
    · by_cases hdigests : step.digests = true
      · simp [Event.pending, hhasher, hdigests, Hasher.reset]
      · simp [Event.pending, hhasher, hdigests, h.pending]

/-- So does a step that garbles from a seed and settles. -/
theorem keeps_of_settles (h : workspace.Holds prg hash pending) {seed : Bytes}
    {outcome : Except GarbleError Answer} (hsettles : step.run.Settles workspace seed outcome)
    (houtcome : step.outcome? prg hash pending = some outcome) (hseed : step.seed? = some seed)
    (hdigests : step.digests = true) : step.Keeps workspace prg hash pending := by
  have hsame : ∀ other, step.outcome? prg hash pending = some other → other = outcome := by
    intro other hother
    rw [houtcome, Option.some.injEq] at hother
    exact hother.symm
  cases hsettles with
  | refused hrun hgenerator hhasher =>
    exact keeps_of_error h hrun (hgenerator.trans h.generator) hhasher hsame
  | @finished _ after hrun hgenerator hhasher hasked =>
    have hleft : after.hasher = if step.digests then workspace.hasher.reset
        else workspace.hasher.update step.absorbs := by
      rw [if_pos hdigests]
      exact hhasher
    apply keeps_of_ok h hrun (hgenerator.trans h.generator) hleft hsame
    intro other hother
    rw [hseed, Option.some.injEq] at hother
    rw [← hother]
    exact hasked

/-- So does a digest of the hasher alone. -/
theorem keeps_of_reset (h : workspace.Holds prg hash pending) {answer : Answer}
    (hrun : step.run.run workspace =
      (.ok answer, { workspace with hasher := workspace.hasher.reset }))
    (houtcome : step.outcome? prg hash pending = some (.ok answer)) (hseed : step.seed? = none)
    (hdigests : step.digests = true) : step.Keeps workspace prg hash pending := by
  apply keeps_of_ok h hrun h.generator
  · rw [if_pos hdigests]
  · intro outcome hother
    rw [houtcome, Option.some.injEq] at hother
    exact hother.symm
  · intro seed hother
    rw [hseed] at hother
    cases hother

/-- Reading from the generator does not reach the hasher, whether or not there is a stream. -/
theorem keeps_fill (h : workspace.Holds prg hash pending) (length : Nat) :
    (fill length).Keeps workspace prg hash pending := by
  have hread := Run.run_onGenerator (Generator.fill length) workspace
  rw [Recorded.run_fill] at hread
  have hkept := StreamGenerator.algorithm_run_fill length workspace.generator.generator
  rw [h.generator] at hkept
  rcases hfill : (Generator.fill length).run workspace.generator.generator with
    ⟨cause | content, generator⟩
  · rw [hfill] at hread hkept
    have hrun : (fill length).run.run workspace = (.error (.key cause),
        ⟨⟨generator, workspace.generator.calls.push (.fill length)⟩, workspace.hasher⟩) := by
      rw [run, run_map, hread]
      rfl
    apply keeps_of_error h hrun hkept rfl
    intro outcome houtcome
    cases houtcome
  · rw [hfill] at hread hkept
    have hrun : (fill length).run.run workspace = (.ok (.bytes content.toList),
        ⟨⟨generator, workspace.generator.calls.push (.fill length)⟩, workspace.hasher⟩) := by
      rw [run, run_map, hread]
      rfl
    apply keeps_of_ok h hrun hkept
    · simp [digests, absorbs, Hasher.update]
    · intro outcome houtcome
      cases houtcome
    · intro seed hseed
      cases hseed

/-- Absorbed tables go into the digest, and nothing is left of them. -/
theorem hashTables_eq (hasher : Hasher) (tables : TableSet) :
    Audit.hashTables hasher tables =
      (tables.digestBehind hasher.algorithm hasher.pending.toList, hasher.reset) := by
  rw [Audit.hashTables, Hasher.finalize, Hasher.peek_updateAll_present, Hasher.reset_updateAll]

/-- So their digest is taken behind what is pending. -/
theorem run_hashTables {γ : Type} [Generator γ] (tables : TableSet) (workspace : Workspace γ) :
    (hashTables tables).run.run workspace =
      (.ok (.digest (tables.digestBehind workspace.hasher.algorithm
        workspace.hasher.pending.toList)), { workspace with hasher := workspace.hasher.reset }) := by
  rw [run, run_map, Run.run_onHasher, hashTables_eq]
  rfl

/-- And a check of tables compares this digest. -/
theorem run_checkTables {γ : Type} [Generator γ] (tables : TableSet) (committed : Bytes)
    (workspace : Workspace γ) :
    (checkTables tables committed).run.run workspace =
      (.ok (.verdict (decide (committed = tables.digestBehind workspace.hasher.algorithm
        workspace.hasher.pending.toList))), { workspace with hasher := workspace.hasher.reset }) := by
  simp only [run, run_map, Run.run_onHasher, Audit.checkTables, hashTables_eq,
    digestsMatch_eq_decide]
  rfl

/-- Every step keeps the invariant. -/
theorem keeps (step : Step) (h : workspace.Holds prg hash pending) :
    step.Keeps workspace prg hash pending := by
  obtain ⟨hprg, hhash, hpending⟩ := h
  subst hprg hhash hpending
  have h : workspace.Holds workspace.generator.generator.algorithm workspace.hasher.algorithm
      workspace.hasher.pending.toList := ⟨rfl, rfl, rfl⟩
  -- What garbles settles, and what works on the hasher alone resets it; two steps compute no digest.
  cases step with
  | update data =>
    have hrun : (update data).run.run workspace =
        (.ok .done, { workspace with hasher := workspace.hasher.update data }) := by
      rw [run, run_map, Run.run_absorb]
      rfl
    apply keeps_of_ok h hrun rfl rfl
    · intro outcome houtcome
      exact (Option.some.inj houtcome).symm
    · intro seed hseed
      cases hseed
  | finalize =>
    have hrun : finalize.run.run workspace =
        (.ok (.digest workspace.hasher.peek), { workspace with hasher := workspace.hasher.reset }) := by
      rw [run, run_map, Run.run_finalize]
      rfl
    exact keeps_of_reset h hrun rfl rfl rfl
  | fill length => exact keeps_fill h length
  | garble algorithm circuit seed =>
    have hsettles := (Garbling.settles_garble algorithm circuit seed workspace).map Answer.garbling
    rw [Functor.map_map] at hsettles
    exact keeps_of_settles h hsettles rfl rfl rfl
  | install held algorithm circuit seed =>
    have hsettles := (held.settles_garble algorithm circuit seed workspace).map
      fun (garbled, values) => Answer.installed garbled values
    rw [Functor.map_map] at hsettles
    exact keeps_of_settles h hsettles rfl rfl rfl
  | digestOnly algorithm circuit seed =>
    have hsettles := (Garbling.settles_digestOnly algorithm circuit seed workspace).map Answer.digest
    rw [Functor.map_map] at hsettles
    exact keeps_of_settles h hsettles rfl rfl rfl
  | hashTables tables => exact keeps_of_reset h (run_hashTables tables workspace) rfl rfl rfl
  | checkSeed algorithm circuit seed committed =>
    have hsettles :=
      (Audit.settles_checkSeed algorithm circuit seed workspace committed).map Answer.verdict
    rw [Functor.map_map] at hsettles
    exact keeps_of_settles h hsettles rfl rfl rfl
  | checkTables tables committed =>
    exact keeps_of_reset h (run_checkTables tables committed workspace) rfl rfl rfl

end Step

/-- From a workspace that holds some bytes, every event is isolated behind those that are pending
then: the steps before it have kept the invariant. -/
theorem Workspace.Holds.isolated {steps : List Step} {start : Workspace (Recorded StreamGenerator)}
    {prg : PrgAlgorithm} {hash : HashAlgorithm} {pending : Bytes} (h : start.Holds prg hash pending)
    {earlier later : List (Event (Recorded StreamGenerator))}
    {event : Event (Recorded StreamGenerator)}
    (hhistory : history steps start = earlier ++ event :: later) :
    event.Isolated prg hash (pendingBehind pending earlier) := by
  induction steps generalizing start pending earlier with
  | nil =>
    have hempty := congrArg List.length hhistory
    simp [history] at hempty
  | cons step steps ih =>
    have hkeeps := step.keeps h
    cases earlier with
    | nil =>
      obtain ⟨rfl, _⟩ := List.cons.inj hhistory
      exact hkeeps.isolated
    | cons first earlier =>
      obtain ⟨rfl, hrest⟩ := List.cons.inj hhistory
      exact ih hkeeps.holds hrest

/-- Whatever steps are carried out, whichever of them fail, and wherever generator and hasher stand at
first: every event is isolated from the earlier ones, but for the bytes that are pending. -/
theorem history_isolated (steps : List Step) (start : Workspace (Recorded StreamGenerator))
    {earlier later : List (Event (Recorded StreamGenerator))}
    {event : Event (Recorded StreamGenerator)}
    (h : history steps start = earlier ++ event :: later) :
    event.Isolated start.generator.generator.algorithm start.hasher.algorithm
      (pendingBehind start.hasher.pending.toList earlier) := by
  have hstart : start.Holds start.generator.generator.algorithm start.hasher.algorithm
      start.hasher.pending.toList := ⟨rfl, rfl, rfl⟩
  exact hstart.isolated h

/-- Two bytes are absorbed and garbling is refused, so the digest of the tables that are garbled next
comes behind the two bytes, and the next digest is that of nothing. -/
theorem history_isolated_update_refused_garble : ∃ absorbed refused garbled digested result,
    history [.update [1, 2], .install (.blank ⟨[], [0], []⟩) .blake3 ⟨[], [], []⟩ [],
        .garble .blake3 .negatedSum (List.replicate 32 7), .finalize]
      (⟨⟨.new .chacha20, #[]⟩, .new .blake3⟩ : Workspace (Recorded StreamGenerator)) =
        [absorbed, refused, garbled, digested] ∧
    refused.outcome = .error (.circuit .wireListMismatch) ∧
    refused.after.hasher.pending.toList = [1, 2] ∧
    Garbling.fromScratch .chacha20 .blake3 .blake3 .negatedSum (List.replicate 32 7) = .ok result ∧
    garbled.outcome = .ok (.garbling (result.behind .blake3 [1, 2])) ∧
    garbled.after.hasher = .new .blake3 ∧
    garbled.after.generator.calls = garbled.before.generator.calls ++ #[.seed 32, .fill 32] ∧
    digested.outcome = .ok (.digest (HashAlgorithm.blake3.digest [])) := by
  let start : Workspace (Recorded StreamGenerator) := ⟨⟨.new .chacha20, #[]⟩, .new .blake3⟩
  let seed : Bytes := List.replicate 32 7
  let absorbed := (Step.update [1, 2]).event start
  let refused :=
    (Step.install (.blank ⟨[], [0], []⟩) .blake3 ⟨[], [], []⟩ []).event absorbed.after
  obtain ⟨garbled, hgarbled⟩ : ∃ garbled,
      garbled = (Step.garble .blake3 .negatedSum seed).event refused.after := ⟨_, rfl⟩
  have hhistory : history [.update [1, 2], .install (.blank ⟨[], [0], []⟩) .blake3 ⟨[], [], []⟩ [],
      .garble .blake3 .negatedSum seed, .finalize] start =
        [absorbed, refused] ++ garbled :: [Step.finalize.event garbled.after] := by
    rw [hgarbled]
    rfl
  have hpending : pendingBehind [] [absorbed, refused] = [1, 2] := by decide
  have hisolated : garbled.Isolated .chacha20 .blake3 (pendingBehind [] [absorbed, refused]) :=
    history_isolated _ start hhistory
  rw [hpending] at hisolated
  have hlength : seed.length = PrgAlgorithm.chacha20.seedLength := List.length_replicate
  obtain ⟨result, hscratch⟩ :=
    Garbling.exists_fromScratch .blake3 .blake3 Circuit.validate_negatedSum hlength
  have hstep : garbled.step = .garble .blake3 .negatedSum seed := by rw [hgarbled]; rfl
  have hgarbling : garbled.outcome = .ok (.garbling (result.behind .blake3 [1, 2])) := by
    apply hisolated.outcome
    rw [hstep, Step.outcome?, hscratch]
    rfl
  -- Behind a success that computes a digest nothing is pending.
  have hbehind : pendingBehind [] ([absorbed, refused] ++ [garbled]) = [] := by
    rw [pendingBehind, List.foldl_append, List.foldl_cons, List.foldl_nil, Event.pending, hgarbling,
      hstep]
    rfl
  have hlast : (Step.finalize.event garbled.after).Isolated .chacha20 .blake3
      (pendingBehind [] ([absorbed, refused] ++ [garbled])) :=
    history_isolated _ start (hhistory.trans (List.append_cons _ _ _))
  rw [hbehind] at hlast
  exact ⟨absorbed, refused, garbled, _, result, hhistory, rfl, by decide, hscratch, hgarbling,
    hisolated.finished _ hgarbling (by rw [hstep]; rfl),
    hisolated.asked _ seed hgarbling (by rw [hstep]; rfl), hlast.outcome _ rfl⟩

end SeededGarbling
