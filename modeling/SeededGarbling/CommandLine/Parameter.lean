/-!
# Commands and their parameters

A command has options of its own and options that every command has. One command also has a
parameter that is named by its place.
-/

namespace SeededGarbling.CommandLine

/-- The name of the program. -/
def programName : String := "gcaudit"

/-- The version of the program. -/
def programVersion : String := "0.1.0"

/-- The name of the command that shows help. -/
def helpCommand : String := "help"

/-- What can be given on a command line. -/
inductive Parameter where
  /-- The configuration file. -/
  | config
  /-- The generator. -/
  | prg
  /-- The function behind labels and pads. -/
  | prf
  /-- The hash. -/
  | hash
  /-- The width of the adder. -/
  | bits
  /-- A seed. -/
  | seed
  /-- The file that tables are written to. -/
  | tables
  /-- A committed digest. -/
  | digest
  /-- The file that tables are read from. -/
  | file
  /-- The number of instances. -/
  | circuits
  /-- The number of instances to check. -/
  | checks
  /-- The seed of all random choices. -/
  | rngSeed
  deriving DecidableEq, Repr

namespace Parameter

/-- The name behind two dashes. The table file is named by its place instead. -/
def long? : Parameter → Option String
  | config => some "config"
  | prg => some "prg"
  | prf => some "prf"
  | hash => some "hash"
  | bits => some "bits"
  | seed => some "seed"
  | tables => some "tables"
  | digest => some "digest"
  | file => none
  | circuits => some "circuits"
  | checks => some "checks"
  | rngSeed => some "rng-seed"

/-- The letter behind one dash. -/
def short? : Parameter → Option Char
  | config => some 'c'
  | bits => some 'b'
  | seed => some 's'
  | tables => some 't'
  | digest => some 'd'
  | circuits => some 'n'
  | checks => some 'k'
  | _ => none

/-- What stands for the value in messages. -/
def placeholder : Parameter → String
  | config => "<FILE>"
  | prg => "<NAME>"
  | prf => "<NAME>"
  | hash => "<NAME>"
  | bits => "<BITS>"
  | seed => "<HEX>"
  | tables => "<FILE>"
  | digest => "<HEX>"
  | file => "<FILE>"
  | circuits => "<N>"
  | checks => "<K>"
  | rngSeed => "<U64>"

/-- How the parameter is written. -/
def display (parameter : Parameter) : String :=
  match parameter.long? with
  | some long => "--" ++ long ++ " " ++ parameter.placeholder
  | none => parameter.placeholder

end Parameter

/-- Which part of the command line is being read. -/
inductive Level where
  /-- What stands in front of the command. -/
  | root
  /-- What stands behind `garble`. -/
  | garble
  /-- What stands behind `verify`. -/
  | verify
  /-- What stands behind `check-tables`. -/
  | checkTables
  /-- What stands behind `cut-and-choose`. -/
  | cutAndChoose
  deriving DecidableEq, Repr

namespace Level

/-- The name of the command that opens a level. -/
def name : Level → String
  | root => programName
  | garble => "garble"
  | verify => "verify"
  | checkTables => "check-tables"
  | cutAndChoose => "cut-and-choose"

/-- The commands that do work. -/
def commands : List Level :=
  [garble, verify, checkTables, cutAndChoose]

/-- The level that the name of a command opens. -/
def ofCommand? (name : String) : Option Level :=
  commands.find? fun level => level.name == name

/-- Whether a text is the name of a command. -/
def isCommand (name : String) : Bool :=
  (ofCommand? name).isSome || name == helpCommand

/-- The options of a level besides those that stand anywhere. -/
def ownOptions : Level → List Parameter
  | root => []
  | garble => [.seed, .tables]
  | verify => [.seed, .digest]
  | checkTables => [.digest]
  | cutAndChoose => [.circuits, .checks, .rngSeed]

/-- The options of a level. -/
def options (level : Level) : List Parameter :=
  [.config, .prg, .prf, .hash, .bits] ++ level.ownOptions

/-- The parameter that is named by its place. -/
def positional? : Level → Option Parameter
  | checkTables => some .file
  | _ => none

/-- What a level cannot do without. -/
def required : Level → List Parameter
  | verify => [.seed, .digest]
  | checkTables => [.digest, .file]
  | _ => []

end Level

end SeededGarbling.CommandLine
