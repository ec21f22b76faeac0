import SeededGarbling.CommandLine.ControlSequence
import SeededGarbling.CommandLine.Parameter

/-!
# Why a command line is not understood

A message names the fault, with the important parts of it marked. The text that was given is part
of the message as it is.
-/

namespace SeededGarbling.CommandLine

/-- Why a command line is not understood. -/
inductive UsageError where
  /-- Nothing takes this argument. -/
  | unexpectedArgument (argument : String)
  /-- There is no such command. -/
  | unrecognizedCommand (name : String)
  /-- The value of a parameter is missing, or empty where it may not be. -/
  | valueRequired (parameter : Parameter)
  /-- The value of a parameter is refused. -/
  | invalidValue (parameter : Parameter) (value reason : String)
  /-- An option without a value has one attached. -/
  | unexpectedValue (option value : String)
  /-- A parameter is given twice. -/
  | usedTwice (parameter : Parameter)
  /-- Parameters that a command cannot do without are missing. -/
  | missingRequired (parameters : List Parameter)
  /-- There is no command. -/
  | missingCommand
  deriving DecidableEq, Repr

/-- What is wrong, in the first lines of a message. -/
def UsageError.summary : UsageError → String
  | unexpectedArgument argument => s!"unexpected argument '{highlight argument}' found"
  | unrecognizedCommand name => s!"unrecognized subcommand '{highlight name}'"
  | valueRequired parameter =>
    s!"a value is required for '{highlight parameter.display}' but none was supplied"
  | invalidValue parameter value reason =>
    s!"invalid value '{highlight value}' for '{highlight parameter.display}': {reason}"
  | unexpectedValue option value =>
    s!"unexpected value '{highlight value}' for '{highlight option}' found; no more were expected"
  | usedTwice parameter =>
    s!"the argument '{highlight parameter.display}' cannot be used multiple times"
  | missingRequired parameters =>
    "the following required arguments were not provided:" ++
      String.join (parameters.map fun parameter => "\n  " ++ highlight parameter.display)
  | missingCommand =>
    s!"'{highlight programName}' requires a subcommand but one was not provided\n" ++
      "  [subcommands: " ++ ", ".intercalate (Level.commands.map Level.name ++ [helpCommand]) ++ "]"

/-- The message about a command line, as a terminal takes it. -/
def UsageError.message (error : UsageError) : String :=
  highlight "error:" ++ " " ++ error.summary ++ "\n\nFor more information, try '"
    ++ highlight "--help" ++ "'."

/-- The lines of the message as they are shown. -/
def UsageError.lines (error : UsageError) : List String :=
  (withoutControl error.message).splitOn "\n"

end SeededGarbling.CommandLine
