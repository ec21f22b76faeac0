import SeededGarbling.Algorithm
import SeededGarbling.Circuit.Basic
import SeededGarbling.Text.Json.Lexical

/-!
# Formats

A format pairs the way in which values are written with the way in which they are read back. The
formats of lists, options, choices and maps are made from those of their parts. What is written is
compact; what is read may be spaced.
-/

namespace SeededGarbling.Json

/-- How values are written and read. -/
structure Format (α : Type) where
  /-- Writes a value without any blanks. -/
  write : α → List Char
  /-- Reads a value off the front of a text. -/
  read : Reader α

namespace Format

variable {α β : Type}

/-- Reads a whole text, around which blanks may stand. -/
def parse (format : Format α) (text : String) : Except ReadError α :=
  format.read.whole isBlank text.toList

/-- Writes a value as a text. -/
def print (format : Format α) (value : α) : String :=
  String.ofList (format.write value)

/-- The same texts for values of another type. -/
def imap (format : Format α) (into : α → β) (out : β → α) : Format β where
  write value := format.write (out value)
  read := into <$> format.read

/-- Numbers below a bound. -/
def natural (bound : Nat) : Format Nat where
  write := writeNatural
  read := Json.natural bound

/-- Bytes, as numbers. -/
def byte : Format UInt8 :=
  (natural 256).imap UInt8.ofNat UInt8.toNat

/-- Wires, as numbers. -/
def wire : Format Wire :=
  (natural UInt32.size).imap UInt32.ofNat UInt32.toNat

/-- Truth values. -/
def bool : Format Bool where
  write value := if value then ['t', 'r', 'u', 'e'] else ['f', 'a', 'l', 's', 'e']
  read := do
    if (← peek) = some 't' then
      exactly ['t', 'r', 'u', 'e']
      return true
    else
      exactly ['f', 'a', 'l', 's', 'e']
      return false

/-- A value that may be absent, which is written as a literal. -/
def option (format : Format α) : Format (Option α) where
  write
    | some value => format.write value
    | none => ['n', 'u', 'l', 'l']
  read := do
    if (← peek) = some 'n' then
      exactly ['n', 'u', 'l', 'l']
      return none
    else
      some <$> format.read

/-- Items with commas between them, between two marks. -/
def writeItems (opening closing : Char) (items : List (List Char)) : List Char :=
  opening :: (items.intersperse [',']).flatten ++ [closing]

/-- Lists of any length. -/
def list (format : Format α) : Format (List α) where
  write values := writeItems '[' ']' (values.map format.write)
  read := do
    mark '['
    items ']' format.read

/-- Lists of one length. -/
def vector (n : Nat) (format : Format α) : Format (Vector α n) where
  write values := format.list.write values.toList
  read := do
    let values ← format.list.read
    if h : values.length = n then
      return ⟨values.toArray, by simpa using h⟩
    else
      throw .malformed

/-- The member of a choice with a name. -/
def ofName [NamedChoice α] (name : String) : Except ReadError α :=
  match NamedChoice.ofName? name with
  | some choice => .ok choice
  | none => .error (.unknownVariant name ((NamedChoice.all : List α).map NamedChoice.name))

/-- Members of a choice, by name. A name may also stand alone in braces, with an empty value. -/
def choice [NamedChoice α] : Format α where
  write value := writeString (NamedChoice.name value)
  read := do
    if (← peek) = some '{' then
      advance
      let value ← MonadExcept.ofExcept (ofName (← string))
      mark ':'
      let _ ← peek
      exactly ['n', 'u', 'l', 'l']
      mark '}'
      return value
    else
      MonadExcept.ofExcept (ofName (← string))

/-- Reads the number in quotes that names a wire: digits alone, without blanks. -/
def readWireKey : Reader Wire := do
  mark '"'
  let number ← Reader.ofOption (naturalFront UInt32.size)
  exactly ['"']
  return UInt32.ofNat number

/-- Reads one entry of a map from wires. -/
def readEntry (format : Format β) : Reader (Wire × β) := do
  let key ← readWireKey
  mark ':'
  return (key, ← format.read)

/-- Maps from wires, in the order of the wires. When read, a later entry replaces an earlier one. -/
def wireMap (format : Format β) : Format (WireMap β) where
  write entries := writeItems '{' '}' <| entries.toList.map fun (key, value) =>
    '"' :: writeNatural key.toNat ++ ['"', ':'] ++ format.write value
  read := do
    mark '{'
    return .ofList (← items '}' format.readEntry)

end Format

end SeededGarbling.Json
