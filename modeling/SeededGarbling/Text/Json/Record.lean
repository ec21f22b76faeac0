import SeededGarbling.Text.Json.Format

/-!
# Formats of records

A record is written as an object with its members in order. It is read from an object with its
members in any order, or from an array with its members in order. A member with a default may be
missing; names that no member has are skipped or refused.
-/

namespace SeededGarbling.Json

/-- The members of a record. The values of all of them are a tuple of type `ρ`; what has been read
of them so far is a tuple of type `σ`. -/
inductive Members : (ρ σ : Type) → Type 1 where
  /-- No member. -/
  | nil : Members Unit Unit
  /-- A member with a name and a format, and perhaps a default, in front of others. -/
  | cons {α ρ σ : Type} (name : String) (format : Format α) (default : Option α)
    (rest : Members ρ σ) : Members (α × ρ) (Option α × σ)

namespace Members

/-- Nothing has been read. -/
def blank : {ρ σ : Type} → Members ρ σ → σ
  | _, _, nil => ()
  | _, _, cons _ _ _ rest => (none, rest.blank)

/-- The names of the members, in order. -/
def names : {ρ σ : Type} → Members ρ σ → List String
  | _, _, nil => []
  | _, _, cons name _ _ rest => name :: rest.names

/-- Writes every member, in order. -/
def write : {ρ σ : Type} → Members ρ σ → ρ → List (List Char)
  | _, _, nil, () => []
  | _, _, cons name format _ rest, (value, values) =>
    (writeString name ++ ':' :: format.write value) :: rest.write values

/-- How to read the value behind a name: nothing if no member has the name, a fault if the member
was read before. -/
def slot? : {ρ σ : Type} → Members ρ σ → String → σ → Option (Except ReadError (Reader σ))
  | _, _, nil, _, () => none
  | _, _, cons member format _ rest, name, (value, values) =>
    if member = name then
      match value with
      | some _ => some (.error (.duplicateField name))
      | none => some (.ok do return (some (← format.read), values))
    else
      (rest.slot? name values).map fun slot => slot.map fun reader => do
        return (value, ← reader)

/-- The values of all members, or the first that is missing. -/
def complete : {ρ σ : Type} → Members ρ σ → σ → Except ReadError ρ
  | _, _, nil, () => .ok ()
  | _, _, cons name _ default rest, (value, values) => do
    let value ← match value.or default with
      | some value => .ok value
      | none => .error (.missingField name)
    return (value, ← rest.complete values)

/-- Reads the values of the members in order, up to the end of an array. -/
def readOrdered : {ρ σ : Type} → Members ρ σ → (isFirst : Bool) → Reader ρ
  | _, _, nil, _ => mark ']'
  | _, _, cons _ format default rest, isFirst => do
    if (← peek) = some ']' then
      match default with
      | some value => return (value, ← rest.readOrdered isFirst)
      | none => throw .malformed
    else
      if !isFirst then mark ','
      let value ← format.read
      return (value, ← rest.readOrdered false)

variable {ρ σ : Type}

/-- Reads one member of an object into what has been read so far. -/
def readMember (members : Members ρ σ) (strict : Bool) (state : σ) : Reader σ := do
  let name ← string
  match members.slot? name state with
  | some slot =>
    let reader ← MonadExcept.ofExcept slot
    mark ':'
    reader
  | none =>
    if strict then
      throw (.unknownField name members.names)
    else
      mark ':'
      skip
      return state

/-- Reads one or more members of an object, up to the closing mark. There are no more of them than
the text behind `fuel` has characters. -/
def readNamed (members : Members ρ σ) (strict : Bool) : (fuel : List Char) → σ → Reader σ
  | [], _ => throw .malformed
  | _ :: fuel, state => do
    let state ← members.readMember strict state
    let next ← peek
    if next = some ',' then
      advance
      members.readNamed strict fuel state
    else if next = some '}' then
      advance
      return state
    else
      throw .malformed

/-- Reads the members of an object, which may have none. -/
def readObject (members : Members ρ σ) (strict : Bool) : Reader ρ := do
  let state ← do
    if (← peek) = some '}' then
      advance
      pure members.blank
    else
      fun text => members.readNamed strict text members.blank text
  MonadExcept.ofExcept (members.complete state)

/-- The format of a record. -/
def format (members : Members ρ σ) (strict : Bool) : Format ρ where
  write values := Format.writeItems '{' '}' (members.write values)
  read := do
    let next ← peek
    if next = some '{' then
      advance
      members.readObject strict
    else if next = some '[' then
      advance
      members.readOrdered true
    else
      throw .malformed

end Members

/-- How the values of a type are taken for records. -/
structure Record (α : Type) where
  /-- The values of all members. -/
  {ρ : Type}
  /-- What has been read of them so far. -/
  {σ : Type}
  /-- The members. -/
  members : Members ρ σ
  /-- Whether names that no member has are refused. -/
  strict : Bool
  /-- What the values of the members make. -/
  into : ρ → α
  /-- The values of the members. -/
  out : α → ρ

/-- The format of the values of a type that are taken for records. -/
def Record.format {α : Type} (record : Record α) : Format α :=
  (record.members.format record.strict).imap record.into record.out

end SeededGarbling.Json
