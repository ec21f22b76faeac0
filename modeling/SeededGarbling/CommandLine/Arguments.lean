import SeededGarbling.CommandLine.Given

/-!
# Arguments

A command line names one command. Options that every command takes may stand before the command or
behind it, where they count more. An option takes the next argument or the text attached to it; its
value is judged when the argument behind it is looked at, or at the end.
-/

namespace SeededGarbling.CommandLine

/-- Why the reading of a command line ends early. -/
inductive Stop where
  /-- The command line is not understood. -/
  | usage (error : UsageError)
  /-- The version is asked for. -/
  | version
  /-- Help is asked for. -/
  | help (level : Level)
  /-- There is nothing on the command line. -/
  | nothingGiven
  deriving DecidableEq, Repr

/-- How far a level has been read. -/
structure LevelState where
  /-- What was given and judged. -/
  given : Given := {}
  /-- A parameter that is not judged yet, with its value once that has been read. -/
  pending : Option (Parameter × Option String) := none
  /-- Whether two dashes have ended the options. -/
  optionsEnded : Bool := false
  deriving DecidableEq, Repr

namespace LevelState

/-- Whether the next argument is the value of an option. -/
def awaitsValue (state : LevelState) : Bool :=
  match state.pending with
  | some (_, none) => true
  | _ => false

/-- Judges what is pending. -/
def resolve (state : LevelState) : Except Stop LevelState :=
  match state.pending with
  | none => .ok state
  | some (parameter, none) => .error (.usage (.valueRequired parameter))
  | some (parameter, some value) =>
    match state.given.store parameter value with
    | .ok given => .ok { state with given := given, pending := none }
    | .error error => .error (.usage error)

/-- Starts an option: with a value attached it is judged at once. -/
def startOption (state : LevelState) (parameter : Parameter) (attached : Option String) :
    Except Stop LevelState := do
  let state ← state.resolve
  match attached with
  | some value => resolve { state with pending := some (parameter, some value) }
  | none => return { state with pending := some (parameter, none) }

/-- Reads an argument behind two dashes. -/
def readLong (state : LevelState) (level : Level) (text : String) : Except Stop LevelState := do
  let characters := text.toList
  let name := String.ofList (characters.takeWhile (· != '='))
  let attached := match characters.dropWhile (· != '=') with
    | _ :: value => some (String.ofList value)
    | [] => none
  match level.options.find? fun parameter => parameter.long? == some name with
  | some parameter => state.startOption parameter attached
  | none =>
    if name = "help" ∨ (name = "version" ∧ level = .root) then
      match attached with
      | some value => throw (.usage (.unexpectedValue ("--" ++ name) value))
      | none =>
        let _ ← state.resolve
        throw (if name = "help" then .help level else .version)
    else
      throw (.usage (.unexpectedArgument ("--" ++ name)))

/-- Reads the letters behind one dash. The rest behind a letter that takes a value is the value. -/
def readShort (state : LevelState) (level : Level) (letters : List Char) :
    Except Stop LevelState := do
  match letters with
  | [] => return state
  | letter :: rest =>
    match level.options.find? fun parameter => parameter.short? == some letter with
    | some parameter =>
      let attached := match rest with
        | [] => none
        | '=' :: value => some (String.ofList value)
        | value => some (String.ofList value)
      state.startOption parameter attached
    | none =>
      if letter = 'h' ∨ (letter = 'V' ∧ level = .root) then
        let _ ← state.resolve
        throw (if letter = 'h' then .help level else .version)
      else
        throw (.usage (.unexpectedArgument (String.ofList ['-', letter])))

/-- Reads an argument that is named by its place. -/
def readPlaced (state : LevelState) (level : Level) (text : String) : Except Stop LevelState := do
  let isFree := fun parameter : Parameter =>
    !state.given.has parameter && state.pending.map Prod.fst != some parameter
  match level.positional?.filter isFree with
  | some parameter =>
    let state ← state.resolve
    return { state with pending := some (parameter, some text) }
  | none =>
    if level = .root ∧ !(state.optionsEnded ∧ Level.isCommand text) then
      throw (.usage (.unrecognizedCommand text))
    else
      throw (.usage (.unexpectedArgument text))

/-- Reads one argument that is not the name of a command. -/
def read (state : LevelState) (level : Level) (text : String) : Except Stop LevelState :=
  if state.optionsEnded then
    state.readPlaced level text
  else
    match text.toList with
    | ['-', '-'] => .ok { state with optionsEnded := true }
    | '-' :: '-' :: rest => state.readLong level (String.ofList rest)
    | '-' :: letter :: rest => state.readShort level (letter :: rest)
    | _ =>
      match state.pending with
      | some (parameter, none) => .ok { state with pending := some (parameter, some text) }
      | _ => state.readPlaced level text

/-- Reads what stands behind a command, and requires all that it cannot do without. -/
def readCommand (state : LevelState) (level : Level) : List String → Except Stop Given
  | [] => do
    let state ← state.resolve
    match level.required.filter fun parameter => !state.given.has parameter with
    | [] => return state.given
    | missing => throw (.usage (.missingRequired missing))
  | text :: rest => do (← state.read level text).readCommand level rest

end LevelState

/-- A command with what it needs. -/
inductive Command where
  /-- Garble the adder, from a seed or a random one, and perhaps write the tables to a file. -/
  | garble (seed tables : Option String)
  /-- Regenerate the adder from a seed and check it against a digest. -/
  | verify (seed digest : String)
  /-- Check the tables in a file against a digest. -/
  | checkTables (file digest : String)
  /-- Run a whole exchange. -/
  | cutAndChoose (circuits checks : Nat) (rngSeed : Option Nat)
  deriving DecidableEq, Repr

/-- An understood command line. -/
structure Arguments where
  /-- The configuration file. -/
  config : Option String
  /-- The generator, if it overrides the configuration. -/
  prg : Option PrgAlgorithm
  /-- The function behind labels and pads, if it overrides the configuration. -/
  prf : Option PrfAlgorithm
  /-- The hash, if it overrides the configuration. -/
  hash : Option HashAlgorithm
  /-- The width of the adder. -/
  bits : Nat
  /-- What to do. -/
  command : Command
  deriving DecidableEq, Repr

namespace Arguments

/-- The command of a level, from what was given behind its name. -/
def command? (given : Given) : Level → Option Command
  | .root => none
  | .garble => some (.garble given.seed given.tables)
  | .verify => do return .verify (← given.seed) (← given.digest)
  | .checkTables => do return .checkTables (← given.file) (← given.digest)
  | .cutAndChoose =>
    some (.cutAndChoose (given.circuits.getD 10) (given.checks.getD 5) given.rngSeed)

/-- Puts together what was given in front of a command and behind it. -/
def combine (front behind : Given) (level : Level) : Except Stop Arguments :=
  match command? behind level with
  | some command => .ok {
      config := behind.config.or front.config
      prg := behind.prg.or front.prg
      prf := behind.prf.or front.prf
      hash := behind.hash.or front.hash
      bits := (behind.bits.or front.bits).getD 32
      command := command }
  | none => .error (.usage (.missingRequired level.required))

/-- What `help` shows, by the command named behind it. No command has commands of its own. -/
def readHelp : List String → Stop
  | [] => .help .root
  | [name] =>
    match Level.ofCommand? name with
    | some level => .help level
    | none => if name = helpCommand then .help .root else .usage (.unrecognizedCommand name)
  | name :: inner :: _ =>
    .usage (.unrecognizedCommand (if Level.isCommand name then inner else name))

/-- Reads what is left of a command line in front of the command. What is pending there is judged
only after all that stands behind the command. -/
def readFrom (state : LevelState) : List String → Except Stop Arguments
  | [] => do
    let state ← state.resolve
    if state.given = {} then throw .nothingGiven else throw (.usage .missingCommand)
  | text :: rest => do
    if state.optionsEnded ∨ state.awaitsValue then
      readFrom (← state.read .root text) rest
    else if text = helpCommand then
      throw (readHelp rest)
    else
      match Level.ofCommand? text with
      | some level =>
        let behind ← LevelState.readCommand {} level rest
        combine (← state.resolve).given behind level
      | none => readFrom (← state.read .root text) rest

/-- Reads a command line. -/
def parse (arguments : List String) : Except Stop Arguments :=
  readFrom {} arguments

end Arguments

end SeededGarbling.CommandLine
