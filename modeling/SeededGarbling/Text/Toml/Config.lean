import SeededGarbling.Garbling.Config
import SeededGarbling.Text.Json.Format
import SeededGarbling.Text.Toml.Document

/-!
# Configurations as TOML

A configuration is a flat document with a name for each algorithm. Algorithms that are not named
have their default; other keys are refused.
-/

namespace SeededGarbling

namespace Toml

/-- Whether a value has no parts. -/
def Value.isHollow : Value → Bool
  | .array [] => true
  | .table _ [] => true
  | _ => false

/-- The member of a choice that a value names: by a string, or by the one key of a table with
nothing behind it. -/
def Value.choice {α : Type} [NamedChoice α] : Value → Except ReadError α
  | .string name => Json.Format.ofName name
  | .table _ [(name, inner)] => do
    let choice ← Json.Format.ofName name
    if inner.isHollow then return choice else throw .malformed
  | _ => .error .malformed

end Toml

namespace GarblingConfig

/-- The keys of a configuration. -/
def tomlKeys : List String :=
  ["prg", "prf", "hash"]

/-- Takes over one entry of a document. -/
def setEntry (config : GarblingConfig) (entry : String × Toml.Value) :
    Except ReadError GarblingConfig := do
  match entry with
  | ("prg", value) => return { config with prg := ← value.choice }
  | ("prf", value) => return { config with prf := ← value.choice }
  | ("hash", value) => return { config with hash := ← value.choice }
  | (key, _) => throw (.unknownField key tomlKeys)

/-- Reads a configuration: first the document as a whole, then its entries in order. -/
def ofToml (text : String) : Except ReadError GarblingConfig :=
  match Toml.parse? text with
  | some entries => entries.foldlM setEntry {}
  | none => .error .malformed

/-- Writes a configuration, one line for each algorithm. -/
def toToml (config : GarblingConfig) : String :=
  let line := fun (key name : String) => key ++ " = \"" ++ name ++ "\"\n"
  line "prg" (NamedChoice.name config.prg) ++ line "prf" (NamedChoice.name config.prf)
    ++ line "hash" (NamedChoice.name config.hash)

end GarblingConfig

end SeededGarbling
