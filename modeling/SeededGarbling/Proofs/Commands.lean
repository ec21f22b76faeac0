import Mathlib
import SeededGarbling.CommandLine.Program
import SeededGarbling.Proofs.AdderWiring
import SeededGarbling.Proofs.Binding
import SeededGarbling.Proofs.HexText
import SeededGarbling.Proofs.Scratch
import SeededGarbling.Proofs.Spelling

/-!
# The commands agree

What one command writes is what another one checks. The file of tables is the tables themselves, one
behind the other, so cutting it up gives them back and its digest is the one that was printed; and
whoever garbles again from the printed seed finds the same digest. A digest that differs is an answer,
and everything else that is wrong is a failure, which gives none.
-/

namespace SeededGarbling.CommandLine

section Sessions

variable {World α β ε : Type}

namespace Session

/-- What a session comes to: its outcome, the lines that are printed by then, and the world behind
it. -/
def observe (x : Session (StateM World) α) (lines : List String) (world : World) :
    (Except Failure α × List String) × World :=
  ((x.run).run lines).run world

variable {x : Session (StateM World) α} {f : α → Session (StateM World) β}
  {lines lines' : List String} {world world' : World}

/-- After a success the next step goes on from what is printed and from the world. -/
theorem observe_bind_of_ok {a : α} (h : observe x lines world = ((.ok a, lines'), world')) :
    observe (x >>= f) lines world = observe (f a) lines' world' := by
  change ((ExceptT.bindCont f (observe x lines world).1.1).run (observe x lines world).1.2).run
    (observe x lines world).2 = _
  rw [h]
  rfl

/-- After a failure there is no next step. -/
theorem observe_bind_of_error {failure : Failure}
    (h : observe x lines world = ((.error failure, lines'), world')) :
    observe (x >>= f) lines world = ((.error failure, lines'), world') := by
  change ((ExceptT.bindCont f (observe x lines world).1.1).run (observe x lines world).1.2).run
    (observe x lines world).2 = _
  rw [h]
  rfl

/-- A line that is printed comes last. -/
theorem observe_print (line : String) (lines : List String) (world : World) :
    observe (print line : Session (StateM World) Unit) lines world =
      ((.ok (), lines ++ [line]), world) := rfl

/-- A step of the surroundings prints nothing. -/
theorem observe_ask {step : StateM World α} {a : α} (h : step.run world = (a, world'))
    (lines : List String) : observe (ask step) lines world = ((.ok a, lines), world') := by
  change ((Except.ok (step.run world).1, lines), (step.run world).2) = _
  rw [h]

/-- A result is gone on with. -/
theorem observe_attempt_ok (context : String) (message : ε → String) (a : α) (lines : List String)
    (world : World) :
    observe (attempt context message (.ok a) : Session (StateM World) α) lines world =
      ((.ok a, lines), world) := rfl

/-- A fault is a failure with a cause. -/
theorem observe_attempt_error (context : String) (message : ε → String) (cause : ε)
    (lines : List String) (world : World) :
    observe (attempt context message (.error cause) : Session (StateM World) α) lines world =
      ((.error ⟨context, some (message cause)⟩, lines), world) := rfl

/-- So is one that nothing is said about. -/
theorem observe_require_ok (message : ε → String) {result : Except ε α} {a : α} (h : result = .ok a)
    (lines : List String) (world : World) :
    observe (require message result : Session (StateM World) α) lines world =
      ((.ok a, lines), world) := by
  rw [h]
  rfl

/-- A verdict is printed. -/
theorem observe_judge (accepted : Bool) (lines : List String) (world : World) :
    observe (judge accepted : Session (StateM World) Verdict) lines world =
      ((.ok (if accepted then .success else .rejection),
        lines ++ [if accepted then "accepted" else "rejected"]), world) := by
  cases accepted <;> rfl

end Session

end Sessions

open Session

section Runs

variable {World : Type} [Environment (StateM World)] {line : List String} {world settled after : World}
  {config : GarblingConfig} {bits : Nat} {command : Command}

/-- What a session leaves behind when it is over. -/
def Report.ofOutcome : Except Failure Verdict → List String → Report
  | .ok verdict, output => ⟨verdict.code, output, []⟩
  | .error failure, output => ⟨1, output, failure.lines⟩

/-- A command line that is understood leaves behind what its session comes to. -/
theorem run_eq {arguments : Arguments} (h : Arguments.parse line = .ok arguments) (world : World) :
    (run line : StateM World Report).run world =
      (.ofOutcome (observe (execute arguments) [] world).1.1 (observe (execute arguments) [] world).1.2,
        (observe (execute arguments) [] world).2) := by
  unfold run
  rw [h]
  dsimp only
  rw [StateT.run_bind]
  rcases hobserve : observe (execute arguments) [] world with ⟨⟨failure | verdict, output⟩, after⟩
  all_goals
    unfold observe at hobserve
    rw [hobserve]
    rfl

/-- A command line asks for a command on the adder of a width: it is understood so, and the algorithms
that it and its configuration file name are settled, which leads from one world to another. -/
def Asks (line : List String) (world settled : World) (config : GarblingConfig) (bits : Nat)
    (command : Command) : Prop :=
  ∃ arguments, Arguments.parse line = .ok arguments ∧ arguments.bits = bits ∧
    arguments.command = command ∧
    observe (settleConfig arguments) [] world = ((.ok config, []), settled)

/-- Every command can be asked for without a configuration file, which leaves the world alone. -/
theorem asks_line (config : GarblingConfig) (hbits : bits ≤ Adder.maximumBits)
    (hcommand : command.Spellable) (world : World) :
    Asks (command.line config bits) world world config bits command :=
  ⟨_, Command.parse_line config hbits hcommand, rfl, rfl, rfl⟩

/-- The work of a command, once the algorithms are settled and the circuit is built. -/
def perform (config : GarblingConfig) (circuit : Circuit) :
    Command → Session (StateM World) Verdict
  | .garble seed tables => garbleCommand config circuit seed tables
  | .verify seed digest => verifyCommand config circuit seed digest
  | .checkTables file digest => checkTablesCommand config circuit file digest
  | .cutAndChoose circuits checks rngSeed => cutAndChooseCommand config circuit circuits checks rngSeed

/-- What is asked for is done. -/
theorem Asks.run_eq (h : Asks line world settled config bits command)
    (hbits : bits ≤ Adder.maximumBits) {outcome : Except Failure Verdict} {output : List String}
    (hwork : observe (perform config (Adder.circuit bits) command) [] settled =
      ((outcome, output), after)) :
    (run line : StateM World Report).run world = (.ofOutcome outcome output, after) := by
  obtain ⟨arguments, hparse, rfl, rfl, hsettle⟩ := h
  have hcircuit : Adder.ofBits arguments.bits = .ok (Adder.circuit arguments.bits) :=
    if_neg (by omega)
  have hexecute : observe (execute arguments) [] world =
      observe (perform config (Adder.circuit arguments.bits) arguments.command) [] settled := by
    unfold execute
    rw [observe_bind_of_ok hsettle, hcircuit, observe_bind_of_ok (observe_attempt_ok _ _ _ _ _)]
    cases arguments.command <;> rfl
  rw [CommandLine.run_eq hparse, hexecute, hwork]

end Runs

section Readings

variable {World : Type} {config : GarblingConfig} {text : String} {seed bytes : Bytes}

/-- A text that shows bytes is read as these. -/
theorem observe_readHex_of_shows (what : String) (h : Hex.Shows text bytes) (lines : List String)
    (world : World) :
    observe (readHex what text) lines world = ((.ok bytes, lines), world) := by
  unfold readHex
  rw [Hex.decode_eq_ok_iff.mpr h]
  exact observe_attempt_ok _ _ _ _ _

/-- A text that shows none is a failure. -/
theorem exists_observe_readHex (what : String) (h : ∀ bytes, ¬ Hex.Shows text bytes)
    (lines : List String) (world : World) :
    ∃ failure, observe (readHex what text) lines world = ((.error failure, lines), world) := by
  unfold readHex
  cases hdecode : Hex.decode text with
  | ok bytes => exact absurd (Hex.decode_eq_ok_iff.mp hdecode) (h bytes)
  | error cause => exact ⟨_, observe_attempt_error _ _ _ _ _⟩

/-- A text that shows a seed of the right length is read as this seed. -/
theorem observe_readSeed (h : Hex.Shows text seed) (hseed : seed.length = config.seedLength)
    (lines : List String) (world : World) :
    observe (readSeed config text) lines world = ((.ok seed, lines), world) := by
  unfold readSeed
  rw [observe_bind_of_ok (observe_readHex_of_shows _ h lines world), if_pos hseed]
  rfl

end Readings

section Verdicts

/-- A report says that something is accepted or that it is rejected, and nothing else, or else that
the work cannot be done. -/
structure Report.Decides (report : Report) (accepts rejects : Prop) : Prop where
  /-- When it says that something is accepted. -/
  accepted : report = ⟨0, ["accepted"], []⟩ ↔ accepts
  /-- When it says that something is rejected. -/
  rejected : report = ⟨1, ["rejected"], []⟩ ↔ rejects
  /-- Otherwise nothing is printed but what is wrong. -/
  failed : ¬ accepts → ¬ rejects → ∃ errors, errors ≠ [] ∧ report = ⟨1, [], errors⟩

variable {accepts rejects : Prop} {text : String} {committed : Bytes}

/-- What is shown is judged by whether it is what was computed. -/
theorem Report.decides_shown (h : Hex.Shows text committed) (computed : Bytes) :
    (Report.ofOutcome (.ok (if decide (committed = computed) then .success else .rejection))
      [if decide (committed = computed) then "accepted" else "rejected"]).Decides
        (Hex.Shows text computed) (∃ other, Hex.Shows text other ∧ other ≠ computed) := by
  have haccepts : committed = computed ↔ Hex.Shows text computed :=
    ⟨fun hsame => hsame ▸ h, h.unique⟩
  have hrejects : committed ≠ computed ↔ ∃ other, Hex.Shows text other ∧ other ≠ computed := by
    constructor
    · exact fun hne => ⟨committed, h, hne⟩
    · rintro ⟨other, hother, hne⟩
      rwa [h.unique hother]
  rw [← haccepts, ← hrejects]
  by_cases hsame : committed = computed
  · rw [decide_eq_true hsame]
    exact ⟨iff_of_true rfl hsame, iff_of_false (by decide) (not_not.mpr hsame),
      fun hne => absurd hsame hne⟩
  · rw [decide_eq_false hsame]
    exact ⟨iff_of_false (by decide) hsame, iff_of_true rfl hsame,
      fun _ hsame' => absurd hsame hsame'⟩

/-- A failure is no verdict. -/
theorem Report.decides_failure (failure : Failure) (haccepts : ¬ accepts) (hrejects : ¬ rejects) :
    (Report.ofOutcome (.error failure) []).Decides accepts rejects := by
  have hlines : failure.lines ≠ [] := List.cons_ne_nil _ _
  constructor
  case accepted => simp [ofOutcome, haccepts]
  case rejected => simp [ofOutcome, hrejects]
  case failed => exact fun _ _ => ⟨failure.lines, hlines, rfl⟩

end Verdicts

section CheckTables

variable {World : Type} [Environment (StateM World)] {config : GarblingConfig} {circuit : Circuit}
  {file digest : String} {content committed : Bytes} {lines : List String} {world after : World}

/-- Tables that are cut out of a file are checked against the digest of the file. -/
theorem checkTables_blocks (hash : HashAlgorithm) {gates : Nat}
    (h : content.length = gates * tableLength) (committed : Bytes) :
    (Audit.checkTables (.new hash) (.ofTables (Bytes.blocks tableLength gates content))
      committed).1 = decide (committed = hash.digest content) := by
  change digestsMatch committed ((Hasher.new hash).updateAll
    (TableSet.ofTables (Bytes.blocks tableLength gates content)).present).peek = _
  rw [TableSet.present_ofTables, Hasher.peek_updateAll_new, Bytes.flatten_blocks h,
    digestsMatch_eq_decide]

/-- A file that cannot be read is a failure. -/
theorem exists_observe_checkTables_of_unread (hdigest : Hex.Shows digest committed)
    {cause : FileError}
    (hread : (Environment.readFile file : StateM World _).run world = (.error cause, after)) :
    ∃ failure, observe (checkTablesCommand config circuit file digest) lines world =
      ((.error failure, lines), after) := by
  refine ⟨⟨s!"reading {file}", some cause.message⟩, ?_⟩
  unfold checkTablesCommand
  rw [observe_bind_of_ok (observe_readHex_of_shows _ hdigest _ _),
    observe_bind_of_ok (observe_ask hread _)]
  exact observe_bind_of_error (observe_attempt_error _ _ _ _ _)

/-- So is one of the wrong length. -/
theorem exists_observe_checkTables_of_length_ne (hdigest : Hex.Shows digest committed)
    (hread : (Environment.readFile file : StateM World _).run world = (.ok content, after))
    (hlength : content.length ≠ circuit.gateCount * tableLength) :
    ∃ failure, observe (checkTablesCommand config circuit file digest) lines world =
      ((.error failure, lines), after) := by
  unfold checkTablesCommand
  rw [observe_bind_of_ok (observe_readHex_of_shows _ hdigest _ _),
    observe_bind_of_ok (observe_ask hread _), observe_bind_of_ok (observe_attempt_ok _ _ _ _ _),
    if_pos hlength]
  exact ⟨_, rfl⟩

/-- One of the right length is judged by its digest. -/
theorem observe_checkTables_of_length (config : GarblingConfig) (lines : List String)
    (hdigest : Hex.Shows digest committed)
    (hread : (Environment.readFile file : StateM World _).run world = (.ok content, after))
    (hlength : content.length = circuit.gateCount * tableLength) :
    observe (checkTablesCommand config circuit file digest) lines world =
      observe (judge (decide (committed = config.hash.digest content))) lines after := by
  unfold checkTablesCommand
  rw [observe_bind_of_ok (observe_readHex_of_shows _ hdigest _ _),
    observe_bind_of_ok (observe_ask hread _), observe_bind_of_ok (observe_attempt_ok _ _ _ _ _),
    if_neg (not_not.mpr hlength)]
  change observe (judge (Audit.checkTables (.new config.hash) (.ofTables
    (Bytes.blocks tableLength circuit.gateCount content)) committed).1) lines after = _
  rw [checkTables_blocks _ hlength]

end CheckTables

section Garble

variable {World : Type} {config : GarblingConfig} {circuit : Circuit} {garbled : GarbledCircuit}
  {values : CreationValues} {seed committed : Bytes} {text digest file : String} {lines : List String}
  {world after : World}

/-- The lines that a garbling is reported with. -/
def garbleLines (circuit : Circuit) (seed digest : Bytes) : List String :=
  [s!"gates: {circuit.gateCount}", s!"seed: {Hex.encode seed}", s!"digest: {Hex.encode digest}"]

/-- What is left behind by a garbling whose tables are to be written, by what comes of the writing. -/
def garbleReport (circuit : Circuit) (seed digest content : Bytes) (file : String) :
    Except FileError Unit → Report
  | .ok () =>
    ⟨0, garbleLines circuit seed digest ++ [s!"tables: {file} ({content.length} bytes)"], []⟩
  | .error cause =>
    ⟨1, garbleLines circuit seed digest,
      Failure.lines ⟨s!"writing {file}", some cause.message⟩⟩

/-- A circuit that is garbled is reported, and its tables are written. -/
theorem exists_observe_garble [Environment (StateM World)] (htext : Hex.Shows text seed)
    (hseed : seed.length = config.seedLength)
    (hgarble : (((GarbledCircuit.blank circuit).garble config.prf circuit seed).run
      config.workspace).1 = .ok (garbled, values)) {outcome : Except FileError Unit}
    (hwrite : (Environment.writeFile file garbled.tables.present.flatten : StateM World _).run world =
      (outcome, after)) :
    ∃ result output, observe (garbleCommand config circuit (some text) (some file)) [] world =
        ((result, output), after) ∧
      Report.ofOutcome result output = garbleReport circuit seed values.digest
        garbled.tables.present.flatten file outcome := by
  have hlines : observe (garbleCommand config circuit (some text) (some file)) [] world =
      observe (do
        attempt s!"writing {file}" FileError.message
          (← ask (Environment.writeFile file garbled.tables.present.flatten))
        print s!"tables: {file} ({garbled.tables.present.flatten.length} bytes)"
        return .success) (garbleLines circuit seed values.digest) world := by
    unfold garbleCommand
    refine (observe_bind_of_ok (observe_readSeed htext hseed [] world)).trans ?_
    refine (observe_bind_of_ok (observe_require_ok _ hgarble _ _)).trans ?_
    refine (observe_bind_of_ok (observe_print _ _ _)).trans ?_
    refine (observe_bind_of_ok (observe_print _ _ _)).trans ?_
    exact observe_bind_of_ok (observe_print _ _ _)
  rw [hlines, observe_bind_of_ok (observe_ask hwrite _)]
  cases outcome with
  | error cause =>
    exact ⟨_, _, observe_bind_of_error (observe_attempt_error _ _ _ _ _), rfl⟩
  | ok _ =>
    rw [observe_bind_of_ok (observe_attempt_ok _ _ _ _ _), observe_bind_of_ok (observe_print _ _ _)]
    exact ⟨_, _, rfl, rfl⟩

/-- A digest is checked against the one that the seed leads to. -/
theorem observe_verify (htext : Hex.Shows text seed) (hseed : seed.length = config.seedLength)
    (hdigest : Hex.Shows digest committed) {computed : Bytes}
    (hregenerated : Yields config.Fits (Garbling.digestOnly config.prf circuit seed) (.ok computed))
    (lines : List String) (world : World) :
    observe (verifyCommand config circuit text digest) lines world =
      observe (judge (decide (committed = computed))) lines world := by
  have hcheck : ((Audit.checkSeed config.prf circuit seed committed).run config.workspace).1 =
      .ok (decide (committed = computed)) := by
    rw [Audit.checkSeed_eq_map, run_map, hregenerated.outcome_eq config.fits_workspace]
    rfl
  unfold verifyCommand
  rw [observe_bind_of_ok (observe_readSeed htext hseed lines world),
    observe_bind_of_ok (observe_readHex_of_shows _ hdigest lines world)]
  exact observe_bind_of_ok (observe_require_ok _ hcheck _ _)

end Garble

section Work

variable {World : Type} [Environment (StateM World)] {line : List String} {world settled after : World}
  {config : GarblingConfig} {bits : Nat} {seed : Bytes} {file digest text : String}

/-- The check of a file of tables decides by the length of the file and by its digest. -/
theorem exists_run_checkTables
    (h : Asks line world settled config bits (.checkTables file digest))
    (hbits : bits ≤ Adder.maximumBits) {reading : Except FileError Bytes}
    (hread : (Environment.readFile file : StateM World _).run settled = (reading, after)) :
    ∃ report left, (run line : StateM World Report).run world = (report, left) ∧
      (left = settled ∨ left = after) ∧
      report.Decides
        (∃ content, reading = .ok content ∧
          content.length = 68 * (Adder.circuit bits).gateCount ∧
          Hex.Shows digest (config.hash.digest content))
        (∃ content, reading = .ok content ∧
          content.length = 68 * (Adder.circuit bits).gateCount ∧
          ∃ other, Hex.Shows digest other ∧ other ≠ config.hash.digest content) := by
  by_cases hhex : ∃ committed, Hex.Shows digest committed
  · obtain ⟨committed, hcommitted⟩ := hhex
    cases reading with
    | error cause =>
      obtain ⟨failure, hfailure⟩ := exists_observe_checkTables_of_unread hcommitted hread
      exact ⟨_, after, h.run_eq hbits hfailure, .inr rfl,
        Report.decides_failure _ (by simp) (by simp)⟩
    | ok content =>
      by_cases hlength : content.length = 68 * (Adder.circuit bits).gateCount
      · have hjudged := observe_checkTables_of_length config [] hcommitted hread
          (hlength.trans (Nat.mul_comm _ _))
        rw [observe_judge] at hjudged
        refine ⟨_, after, h.run_eq hbits hjudged, .inr rfl, ?_⟩
        have hdecides := Report.decides_shown hcommitted (config.hash.digest content)
        simpa [hlength] using hdecides
      · obtain ⟨failure, hfailure⟩ := exists_observe_checkTables_of_length_ne hcommitted hread
          fun hsame => hlength (hsame.trans (Nat.mul_comm _ _))
        exact ⟨_, after, h.run_eq hbits hfailure, .inr rfl,
          Report.decides_failure _ (by simp [hlength]) (by simp [hlength])⟩
  · rw [not_exists] at hhex
    obtain ⟨failure, hfailure⟩ := exists_observe_readHex "digest" hhex [] settled
    exact ⟨_, settled, h.run_eq hbits (observe_bind_of_error hfailure), .inl rfl,
      Report.decides_failure _ (by simp [hhex]) (by simp [hhex])⟩

/-- The check of a digest against a seed decides by the digest that the seed leads to. -/
theorem exists_run_verify (h : Asks line world settled config bits (.verify text digest))
    (hbits : bits ≤ Adder.maximumBits) (htext : Hex.Shows text seed)
    (hseed : seed.length = config.seedLength) {computed : Bytes}
    (hregenerated : Yields config.Fits (Garbling.digestOnly config.prf (Adder.circuit bits) seed)
      (.ok computed)) :
    ∃ report, (run line : StateM World Report).run world = (report, settled) ∧
      report.Decides (Hex.Shows digest computed)
        (∃ other, Hex.Shows digest other ∧ other ≠ computed) := by
  by_cases hhex : ∃ committed, Hex.Shows digest committed
  · obtain ⟨committed, hcommitted⟩ := hhex
    have hjudged := observe_verify htext hseed hcommitted hregenerated [] settled
    rw [observe_judge] at hjudged
    exact ⟨_, h.run_eq hbits hjudged, Report.decides_shown hcommitted computed⟩
  · rw [not_exists] at hhex
    obtain ⟨failure, hfailure⟩ := exists_observe_readHex "digest" hhex [] settled
    have hverify : observe (verifyCommand config (Adder.circuit bits) text digest) [] settled =
        ((.error failure, []), settled) := by
      unfold verifyCommand
      rw [observe_bind_of_ok (observe_readSeed htext hseed [] settled)]
      exact observe_bind_of_error hfailure
    exact ⟨_, h.run_eq hbits hverify,
      Report.decides_failure _ (hhex _) fun ⟨other, hother, _⟩ => hhex other hother⟩

/-- What the commands do about one garbling: its tables, its digest, and the file of its tables. -/
structure Agreement (World : Type) [Environment (StateM World)] (config : GarblingConfig) (bits : Nat)
    (seed : Bytes) (tables : TableSet) (digest content : Bytes) : Prop where
  /-- Every command can be asked for, in every world. -/
  asked : ∀ (command : Command) (world : World), command.Spellable →
    Asks (command.line config bits) world world config bits command
  /-- There are 68 bytes for each gate. -/
  length : content.length = 68 * (Adder.circuit bits).gateCount
  /-- Cut up, they are the tables, in order. -/
  blocks : .ofTables (Bytes.blocks 68 (Adder.circuit bits).gateCount content) = tables
  /-- Their digest is that of the garbling. -/
  digest_eq : digest = config.hash.digest content
  /-- To garble prints the digest and writes the file. -/
  garble : ∀ (line : List String) (world settled written : World) (seedText file : String)
      (outcome : Except FileError Unit),
    Asks line world settled config bits (.garble (some seedText) (some file)) →
    Hex.Shows seedText seed →
    (Environment.writeFile file content : StateM World _).run settled = (outcome, written) →
    (run line : StateM World Report).run world =
      (garbleReport (Adder.circuit bits) seed digest content file outcome, written)
  /-- To check a file, whatever it is, decides by its length and its digest. -/
  checkTables : ∀ (line : List String) (world settled after : World) (file shown : String)
      (reading : Except FileError Bytes),
    Asks line world settled config bits (.checkTables file shown) →
    (Environment.readFile file : StateM World _).run settled = (reading, after) →
    ∃ report left, (run line : StateM World Report).run world = (report, left) ∧
      (left = settled ∨ left = after) ∧
      report.Decides
        (∃ found, reading = .ok found ∧ found.length = 68 * (Adder.circuit bits).gateCount ∧
          Hex.Shows shown (config.hash.digest found))
        (∃ found, reading = .ok found ∧ found.length = 68 * (Adder.circuit bits).gateCount ∧
          ∃ other, Hex.Shows shown other ∧ other ≠ config.hash.digest found)
  /-- So it accepts the file that was written with the digest that was printed. -/
  checkTables_written : ∀ (line : List String) (world settled after : World) (file : String),
    Asks line world settled config bits (.checkTables file (Hex.encode digest)) →
    (Environment.readFile file : StateM World _).run settled = (.ok content, after) →
    (run line : StateM World Report).run world = (⟨0, ["accepted"], []⟩, after)
  /-- To check a digest against the seed decides by whether it is the one that was printed. -/
  verify : ∀ (line : List String) (world settled : World) (seedText shown : String),
    Asks line world settled config bits (.verify seedText shown) →
    Hex.Shows seedText seed →
    ∃ report, (run line : StateM World Report).run world = (report, settled) ∧
      report.Decides (Hex.Shows shown digest) (∃ other, Hex.Shows shown other ∧ other ≠ digest)

/-- In a directory where the file can be written, the tables and the seed are then accepted with the
digest that was printed. -/
theorem Agreement.accepts_in_directory {tables : TableSet} {computed content : Bytes}
    {directory stored : Directory}
    (h : Agreement Directory config bits seed tables computed content)
    (hwrite : directory.write file content = .ok stored) (hfile : file ≠ "") :
    (run ((Command.garble (some (Hex.encode seed)) (some file)).line config bits) :
        StateM Directory Report).run directory =
      (garbleReport (Adder.circuit bits) seed computed content file (.ok ()), stored) ∧
    (run ((Command.checkTables file (Hex.encode computed)).line config bits) :
        StateM Directory Report).run stored = (⟨0, ["accepted"], []⟩, stored) ∧
    (run ((Command.verify (Hex.encode seed) (Hex.encode computed)).line config bits) :
        StateM Directory Report).run stored = (⟨0, ["accepted"], []⟩, stored) := by
  have hwritten : (Environment.writeFile file content : StateM Directory _).run directory =
      (.ok (), stored) := by
    simp only [Environment.writeFile, StateT.run_bind, StateT.run_get, pure_bind, hwrite]
    rfl
  have hfound : (Environment.readFile file : StateM Directory _).run stored =
      (.ok content, stored) :=
    congrArg (·, stored) (Directory.read_of_write hwrite)
  have hnamed : (Command.garble (some (Hex.encode seed)) (some file)).Spellable := by
    rintro name ⟨⟩
    exact hfile
  refine ⟨?_, ?_, ?_⟩
  · exact h.garble _ _ _ _ _ _ _ (h.asked _ _ hnamed) (Hex.shows_encode seed) hwritten
  · exact h.checkTables_written _ _ _ _ _ (h.asked _ _ hfile) hfound
  · obtain ⟨report, hverify, hdecides⟩ :=
      h.verify _ _ _ _ _ (h.asked _ stored trivial) (Hex.shows_encode seed)
    rw [hverify, hdecides.accepted.mpr (Hex.shows_encode computed)]

/-- Whatever the surroundings, the commands agree about the garbling of any adder of a supported width
from any seed of the right length. -/
theorem commands_agree {World : Type} [Environment (StateM World)] (config : GarblingConfig)
    {bits : Nat} (hbits : bits ≤ Adder.maximumBits) {seed : Bytes}
    (hseed : seed.length = config.seedLength) :
    ∃ garbled values after content,
      ((GarbledCircuit.blank (Adder.circuit bits)).garble config.prf (Adder.circuit bits) seed).run
        config.workspace = (.ok (garbled, values), after) ∧
      Agreement World config bits seed garbled.tables values.digest content := by
  obtain ⟨garbled, values, after, hgarble, -, hhonest⟩ :=
    GarbledCircuit.exists_run_garble_blank (Adder.validate_circuit hbits) hseed config.fits_workspace
  have hcomplete := (garbled.isGarbled_iff.mp hhonest.isGarbled).1
  have hcount : garbled.tables.present.length = (Adder.circuit bits).gateCount := by
    rw [TableSet.length_present hcomplete, hhonest.size]
  have hlength : garbled.tables.present.flatten.length = 68 * (Adder.circuit bits).gateCount := by
    rw [Bytes.length_flatten_of_forall hhonest.widths, hcount]
    exact Nat.mul_comm _ _
  have hdigest : values.digest = config.hash.digest garbled.tables.present.flatten := hhonest.digest
  refine ⟨garbled, values, after, garbled.tables.present.flatten, hgarble, ?_⟩
  constructor
  case asked => exact fun command world hcommand => asks_line config hbits hcommand world
  case length => exact hlength
  case blocks =>
    rw [← hcount]
    exact (congrArg _ (Bytes.blocks_flatten hhonest.widths)).trans
      (TableSet.ofTables_present hcomplete)
  case digest_eq => exact hdigest
  case garble =>
    intro line world settled written seedText file outcome hasks htext hwrite
    obtain ⟨result, output, hwork, hreport⟩ := exists_observe_garble htext hseed
      (congrArg Prod.fst hgarble) hwrite
    rw [hasks.run_eq hbits hwork, hreport]
  case checkTables =>
    intro line world settled after file shown reading hasks hread
    exact exists_run_checkTables hasks hbits hread
  case checkTables_written =>
    intro line world settled after file hasks hread
    have hjudged := observe_checkTables_of_length config [] (Hex.shows_encode values.digest) hread
      (hlength.trans (Nat.mul_comm _ _))
    rw [observe_judge, decide_eq_true hdigest] at hjudged
    exact hasks.run_eq hbits hjudged
  case verify =>
    intro line world settled seedText shown hasks htext
    exact exists_run_verify hasks hbits htext hseed hhonest.regenerated

/-- In an empty directory this is so for the adder of one bit and a seed of zeros. -/
theorem commands_agree_one_bit : ∃ (seed digest content : Bytes) (stored : Directory),
    (run ((Command.garble (some (Hex.encode seed)) (some "t")).line {} 1) :
        StateM Directory Report).run ⟨[]⟩ =
      (garbleReport (Adder.circuit 1) seed digest content "t" (.ok ()), stored) ∧
    (run ((Command.checkTables "t" (Hex.encode digest)).line {} 1) :
        StateM Directory Report).run stored = (⟨0, ["accepted"], []⟩, stored) ∧
    (run ((Command.verify (Hex.encode seed) (Hex.encode digest)).line {} 1) :
        StateM Directory Report).run stored = (⟨0, ["accepted"], []⟩, stored) := by
  obtain ⟨garbled, values, after, content, -, hagree⟩ :=
    @commands_agree Directory _ {} 1 (by decide) (List.replicate 32 0) rfl
  have hplace : Directory.place ⟨[]⟩ "t" = .ok (.entry "" "t" false) := by cbv
  have hwrite : Directory.write ⟨[]⟩ "t" content = .ok (.put ⟨[]⟩ "t" content) := by
    unfold Directory.write
    rw [hplace]
    rfl
  exact ⟨_, values.digest, content, _, hagree.accepts_in_directory hwrite (by decide)⟩

end Work

end SeededGarbling.CommandLine
