/-!
# Why a text cannot be read

Four faults are named: they concern the members of a record and the names of choices. All other
faults, of form, type or range, are one.
-/

namespace SeededGarbling

/-- The first fault of a text. -/
inductive ReadError where
  /-- A record has no member of the name, and refuses others. -/
  | unknownField (name : String) (expected : List String)
  /-- A choice has no member of the name. -/
  | unknownVariant (name : String) (expected : List String)
  /-- A record ends without the member. -/
  | missingField (name : String)
  /-- A record has the member twice. -/
  | duplicateField (name : String)
  /-- The text has another form, type or range than it should. -/
  | malformed
  deriving DecidableEq, Repr

namespace ReadError

/-- Names as a choice of alternatives. -/
def alternatives (names : List String) : String :=
  let quoted := names.map fun name => "`" ++ name ++ "`"
  match quoted with
  | [a, b] => s!"{a} or {b}"
  | [a] => a
  | _ => "one of " ++ ", ".intercalate quoted

/-- The wording of a fault that is named. -/
def message? : ReadError → Option String
  | unknownField name expected =>
    some ("unknown field `" ++ name ++ "`, expected " ++ alternatives expected)
  | unknownVariant name expected =>
    some ("unknown variant `" ++ name ++ "`, expected " ++ alternatives expected)
  | missingField name => some ("missing field `" ++ name ++ "`")
  | duplicateField name => some ("duplicate field `" ++ name ++ "`")
  | malformed => none

end ReadError

/-- Reads a value off the front of a text. -/
abbrev Reader :=
  StateT (List Char) (Except ReadError)

namespace Reader

/-- Takes what a step reads off the front, or fails if it reads nothing. -/
def ofOption {α : Type} (step : List Char → Option (α × List Char)) : Reader α := fun text =>
  match step text with
  | some result => .ok result
  | none => .error .malformed

/-- Reads a whole text. -/
def whole {α : Type} (reader : Reader α) (blank : Char → Bool) (text : List Char) :
    Except ReadError α := do
  let (value, rest) ← reader.run text
  if rest.all blank then return value else throw .malformed

end Reader

end SeededGarbling
