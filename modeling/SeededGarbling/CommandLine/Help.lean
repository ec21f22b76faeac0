import SeededGarbling.CommandLine.Parameter

/-!
# Help

Help on a command says what it is for, how it is called, and what every parameter means.
-/

namespace SeededGarbling.CommandLine

namespace Level

/-- What a level is for. -/
def about : Level → String
  | root => "Seed-based garbling and hash audit of ripple-carry adder circuits"
  | garble => "Garble the adder from a seed and print its commitment digest"
  | verify => "Regenerate the adder from a seed and check it against a digest"
  | checkTables => "Check a garbled table file against a digest"
  | cutAndChoose => "Run a full cut-and-choose exchange between garbler and verifier"

/-- How a level is called. -/
def usage : Level → String
  | root => "Usage: " ++ programName ++ " [OPTIONS] <COMMAND>"
  | garble => "Usage: " ++ programName ++ " garble [OPTIONS]"
  | verify => "Usage: " ++ programName ++ " verify [OPTIONS] --seed <HEX> --digest <HEX>"
  | checkTables => "Usage: " ++ programName ++ " check-tables [OPTIONS] --digest <HEX> <FILE>"
  | cutAndChoose => "Usage: " ++ programName ++ " cut-and-choose [OPTIONS]"

/-- What a parameter means at a level. -/
def meaning (level : Level) : Parameter → String
  | .config => "TOML file that names the algorithms"
  | .prg => "Seed expander (chacha20, aes128-ctr)"
  | .prf => "Label and pad PRF (blake3, hmac-sha256)"
  | .hash => "Commitment hash (blake3, sha256)"
  | .bits => "Width of the adder circuit in bits [default: 32]"
  | .seed =>
    if level = .garble then "Seed as hex; a random seed is drawn when omitted"
    else "Revealed seed as hex"
  | .tables => "Write the garbled tables, in gate order, to this file"
  | .digest => "Committed digest as hex"
  | .file => "File written by garble --tables"
  | .circuits => "Number of garbled instances committed to [default: 10]"
  | .checks => "Number of instances opened for checking [default: 5]"
  | .rngSeed => "Seed both parties' randomness for a reproducible run"

/-- The commands, where one can be chosen. -/
def commandLines : Level → List String
  | root =>
    ["Commands:"] ++ (commands.map fun level =>
      "  " ++ level.name ++ "  " ++ level.about) ++ ["  help  Print help on a command", ""]
  | _ => []

/-- The parameter named by its place, where there is one. -/
def placedLines (level : Level) : List String :=
  match level.positional? with
  | some parameter =>
    ["Arguments:", "  " ++ parameter.display ++ "  " ++ level.meaning parameter, ""]
  | none => []

/-- An option with all its names. -/
def optionLine (level : Level) (parameter : Parameter) : String :=
  let short := match parameter.short? with
    | some letter => "  -" ++ letter.toString ++ ", "
    | none => "      "
  short ++ parameter.display ++ "  " ++ level.meaning parameter

/-- The help on a level. -/
def helpLines (level : Level) : List String :=
  [level.about, "", level.usage, ""] ++ level.commandLines ++ level.placedLines
    ++ "Options:" :: level.options.map level.optionLine
    ++ ["  -h, --help  Print help"]
    ++ if level = .root then ["  -V, --version  Print version"] else []

end Level

end SeededGarbling.CommandLine
