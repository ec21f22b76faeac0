import SeededGarbling.Bytes.Hex
import SeededGarbling.CommandLine.Arguments
import SeededGarbling.CommandLine.Environment
import SeededGarbling.CommandLine.Help
import SeededGarbling.Exchange.Garbler
import SeededGarbling.Exchange.Verifier
import SeededGarbling.Random.Standard
import SeededGarbling.Text.Toml.Config

/-!
# The commands

Every command settles the algorithms, builds the adder and then does its own work. A command that
judges something says so in its output and in its exit code; a command that cannot do its work says
why. What was printed before that stays printed.
-/

namespace SeededGarbling.CommandLine

/-- Why a command cannot do its work. -/
structure Failure where
  /-- What was being done, or what is wrong. -/
  context : String
  /-- What stopped it. -/
  cause : Option String := none
  deriving DecidableEq, Repr

/-- The lines that report a failure. -/
def Failure.lines (failure : Failure) : List String :=
  ("Error: " ++ failure.context) ::
    match failure.cause with
    | none => []
    | some cause => ["", "Caused by:"] ++ (cause.splitOn "\n").map ("    " ++ ·)

/-- How a run of a command ends. -/
inductive Verdict where
  /-- The work is done, and what was judged is accepted. -/
  | success
  /-- What was judged is rejected. -/
  | rejection
  deriving DecidableEq, Repr

/-- A command at work. Lines that were printed outlive a failure. -/
abbrev Session (m : Type → Type) :=
  ExceptT Failure (StateT (List String) m)

namespace Session

variable {m : Type → Type} [Monad m] {α ε : Type}

/-- Prints one line. -/
def print (line : String) : Session m Unit :=
  modify (· ++ [line])

/-- A step of the surroundings. -/
def ask (step : m α) : Session m α :=
  (step : StateT (List String) m α)

/-- Goes on with a result, or fails in a context with the cause. -/
def attempt (context : String) (message : ε → String) (result : Except ε α) : Session m α :=
  match result with
  | .ok value => return value
  | .error cause => throw { context := context, cause := some (message cause) }

/-- Goes on with a result, or fails with its fault. -/
def require (message : ε → String) (result : Except ε α) : Session m α :=
  match result with
  | .ok value => return value
  | .error fault => throw { context := message fault }

/-- Prints a verdict on what was judged. -/
def judge (accepted : Bool) : Session m Verdict := do
  if accepted then
    print "accepted"
    return .success
  else
    print "rejected"
    return .rejection

end Session

open Session

variable {m : Type → Type} [Monad m] [Environment m]

/-- The wording of a configuration that is refused. -/
def configFault (error : ReadError) : String :=
  match error.message? with
  | some message => "TOML parse error\n" ++ message
  | none => "TOML parse error"

/-- The configuration in the file at a path. -/
def readConfig (path : String) : Session m GarblingConfig := do
  let reading := s!"reading config {path}"
  let content ← attempt reading FileError.message (← ask (Environment.readFile path))
  match String.fromUTF8? ⟨content.toArray⟩ with
  | some text => attempt s!"parsing config {path}" configFault (GarblingConfig.ofToml text)
  | none => attempt reading FileError.message (.error .notText)

/-- The algorithms of a run: the defaults, unless a configuration file says otherwise, unless the
arguments do. -/
def settleConfig (arguments : Arguments) : Session m GarblingConfig := do
  let config ← match arguments.config with
    | some path => readConfig path
    | none => pure {}
  return {
    prg := arguments.prg.getD config.prg
    prf := arguments.prf.getD config.prf
    hash := arguments.hash.getD config.hash }

/-- The bytes that an argument writes in hexadecimal. -/
def readHex (what text : String) : Session m Bytes :=
  attempt s!"{what} is not valid hex" HexError.message (Hex.decode text)

/-- A seed of the right length. -/
def readSeed (config : GarblingConfig) (text : String) : Session m Bytes := do
  let seed ← readHex "seed" text
  if seed.length = config.seedLength then
    return seed
  else
    let name := NamedChoice.name config.prg
    throw {
      context := s!"{name} expects a {config.seedLength}-byte seed, got {seed.length} bytes" }

/-- Garbles the circuit, prints seed and digest, and writes the tables if asked to. -/
def garbleCommand (config : GarblingConfig) (circuit : Circuit) (seed tables : Option String) :
    Session m Verdict := do
  let seed ← match seed with
    | some text => readSeed config text
    | none => ask (Environment.randomBytes config.seedLength)
  let run := (GarbledCircuit.blank circuit).garble config.prf circuit seed
  let (garbled, values) ← require GarbleError.message (run.run config.workspace).1
  print s!"gates: {circuit.gateCount}"
  print s!"seed: {Hex.encode seed}"
  print s!"digest: {Hex.encode values.digest}"
  match tables with
  | none => return .success
  | some path =>
    let content := garbled.tables.present.flatten
    attempt s!"writing {path}" FileError.message (← ask (Environment.writeFile path content))
    print s!"tables: {path} ({content.length} bytes)"
    return .success

/-- Garbles the circuit again from a seed and compares the digest. -/
def verifyCommand (config : GarblingConfig) (circuit : Circuit) (seed digest : String) :
    Session m Verdict := do
  let seed ← readSeed config seed
  let digest ← readHex "digest" digest
  let run := Audit.checkSeed config.prf circuit seed digest
  judge (← require GarbleError.message (run.run config.workspace).1)

/-- Compares the digest of the tables in a file. -/
def checkTablesCommand (config : GarblingConfig) (circuit : Circuit) (path digest : String) :
    Session m Verdict := do
  let digest ← readHex "digest" digest
  let content ← attempt s!"reading {path}" FileError.message (← ask (Environment.readFile path))
  let gates := circuit.gateCount
  let expected := gates * tableLength
  if content.length ≠ expected then
    throw {
      context := s!"{path} holds {content.length} bytes, expected {expected} for {gates} gates" }
  let tables := TableSet.ofTables (Bytes.blocks tableLength gates content)
  judge (Audit.checkTables (.new config.hash) tables digest).1

/-- Runs both sides of an exchange, each with its own source of randomness. -/
def exchange {ρ : Type} [RandomSource ρ] (config : GarblingConfig) (circuit : Circuit)
    (circuits checks : Nat) (garblerSource verifierSource : ρ) : Session m Verdict := do
  let commit := Garbler.commit ⟨config, circuit, []⟩ circuits
  let garbler ← require ExchangeError.message (commit.run garblerSource).1
  let commitments := garbler.commitments
  print s!"committed: {commitments.length}"
  let choose := Verifier.choose commitments.length checks
  let checked ← require ExchangeError.message (choose.run verifierSource).1
  print ("checks: " ++ ",".intercalate (checked.map toString))
  let opening ← require ExchangeError.message (garbler.openInstances checked)
  match Verifier.audit ⟨config, circuit⟩ commitments checked opening with
  | .ok evaluated =>
    print s!"evaluation circuits: {evaluated.size}"
    print "audit passed"
    return .success
  | .error (.cheatAttempt index) =>
    print (ExchangeError.cheatAttempt index).message
    return .rejection
  | .error fault => throw { context := fault.message }

/-- Runs an exchange whose sources are seeded with a number and its successor, or at random. -/
def cutAndChooseCommand (config : GarblingConfig) (circuit : Circuit) (circuits checks : Nat)
    (rngSeed : Option Nat) : Session m Verdict := do
  let (garblerSource, verifierSource) : StandardSource × StandardSource ← match rngSeed with
    | some seed => pure (.ofSeed (.ofNat seed), .ofSeed (.ofNat (seed + 1)))
    | none => do
      let first ← ask (Environment.randomBytes 32)
      let second ← ask (Environment.randomBytes 32)
      pure ({ key := first }, { key := second })
  exchange config circuit circuits checks garblerSource verifierSource

/-- Does what an understood command line asks for. -/
def execute (arguments : Arguments) : Session m Verdict := do
  let config ← settleConfig arguments
  let circuit ← attempt "building adder circuit" CircuitError.message
    (Adder.ofBits arguments.bits)
  match arguments.command with
  | .garble seed tables => garbleCommand config circuit seed tables
  | .verify seed digest => verifyCommand config circuit seed digest
  | .checkTables file digest => checkTablesCommand config circuit file digest
  | .cutAndChoose circuits checks rngSeed =>
    cutAndChooseCommand config circuit circuits checks rngSeed

/-- What a run leaves behind. -/
structure Report where
  /-- The exit code. -/
  code : Nat
  /-- The lines of the output. -/
  output : List String
  /-- The lines that report a failure. -/
  errors : List String
  deriving DecidableEq, Repr

/-- What is left behind when the reading of the command line ends early. -/
def Stop.report : Stop → Report
  | usage error => ⟨2, [], error.lines⟩
  | version => ⟨0, [programName ++ " " ++ programVersion], []⟩
  | help level => ⟨0, level.helpLines, []⟩
  | nothingGiven => ⟨2, [], Level.root.helpLines⟩

/-- The exit code of a verdict. -/
def Verdict.code : Verdict → Nat
  | success => 0
  | rejection => 1

/-- Runs the program with the arguments behind its name. -/
def run (arguments : List String) : m Report :=
  match Arguments.parse arguments with
  | .error stop => return stop.report
  | .ok arguments => do
    match ← ((execute arguments).run).run [] with
    | (.ok verdict, output) => return ⟨verdict.code, output, []⟩
    | (.error failure, output) => return ⟨1, output, failure.lines⟩

end SeededGarbling.CommandLine
