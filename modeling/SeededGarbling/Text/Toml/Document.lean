import SeededGarbling.Text.Toml.Lexical

/-!
# TOML documents

A document is read as a whole before anything in it is asked for. Its tables keep their entries in
the order in which they were first named; a key that is given twice, or that is used as a table
after it was given, is a fault.
-/

namespace SeededGarbling.Toml

/-- How a table came about, which decides who may add to it. -/
inductive TableKind where
  /-- Written in braces; closed. -/
  | inline
  /-- Named by the header of a table within; a header may follow. -/
  | implicit
  /-- Named by a key with dots; further such keys may add to it. -/
  | dotted
  /-- Has a header of its own. -/
  | headed
  deriving DecidableEq, Repr

/-- What a key stands for. -/
inductive Value where
  /-- A string. -/
  | string (text : String)
  /-- A number, a truth value, a date or a time. -/
  | scalar
  /-- A list in brackets. -/
  | array (items : List Value)
  /-- A table. -/
  | table (kind : TableKind) (entries : List (String × Value))
  /-- A list of tables with headers, the last one first. -/
  | tables (elements : List (List (String × Value)))
  deriving Repr

/-- The entries of a table, in order. -/
abbrev Entries := List (String × Value)

namespace Entries

/-- Edits the value of a key, or adds one at the end. -/
def edit (entries : Entries) (key : String) (change : Option Value → Option Value) :
    Option Entries :=
  match entries.find? fun entry => entry.1 == key with
  | some (_, value) => do
    let value ← change (some value)
    return entries.map fun entry => if entry.1 == key then (key, value) else entry
  | none => do
    return entries ++ [(key, ← change none)]

/-- Adds an entry for a key that has none. -/
def insertNew (key : String) (value : Value) (entries : Entries) : Option Entries :=
  entries.edit key fun
    | none => some value
    | some _ => none

/-- Whether a path may lead through a table. Keys with dots add only to tables that such keys have
made, but on the way there they may pass tables without a header. -/
def mayPass (kind found : TableKind) (isLast : Bool) : Bool :=
  if kind = .dotted then found = .dotted || (found = .implicit && !isLast) else found ≠ .inline

/-- Edits the table at the end of a path, making tables of a kind where there are none. -/
def within (kind : TableKind) (change : Entries → Option Entries) :
    (path : List String) → Entries → Option Entries
  | [], entries => change entries
  | key :: path, entries => entries.edit key fun
    | none => do return .table kind (← within kind change path [])
    | some (.table found inner) =>
      if mayPass kind found path.isEmpty then do
        return .table found (← within kind change path inner)
      else none
    | some (.tables (last :: before)) =>
      if kind = .dotted && path.isEmpty then none
      else do return .tables ((← within kind change path last) :: before)
    | some _ => none

/-- Adds the value of a key of one or more parts. -/
def insertPath (path : List String) (value : Value) (entries : Entries) : Option Entries := do
  let key ← path.getLast?
  within .dotted (insertNew key value) path.dropLast entries

/-- Gives a table its header. It comes behind all others, with what it holds already. -/
def addHeader (key : String) (entries : Entries) : Option Entries :=
  match entries.lookup key with
  | none => some (entries ++ [(key, .table .headed [])])
  | some (.table .implicit found) =>
    some (entries.filter (fun entry => entry.1 != key) ++ [(key, .table .headed found)])
  | some _ => none

/-- Opens the table that a header names. -/
def openTable (path : List String) (entries : Entries) : Option Entries := do
  let key ← path.getLast?
  within .implicit (addHeader key) path.dropLast entries

/-- Adds a table to the list that a header names. -/
def openElement (path : List String) (entries : Entries) : Option Entries := do
  let key ← path.getLast?
  let start := fun inner : Entries => inner.edit key fun
    | none => some (.tables [[]])
    | some (.tables elements) => some (.tables ([] :: elements))
    | some _ => none
  within .implicit start path.dropLast entries

end Entries

mutual

/-- A value of any kind, nested at most `depth` deep, with no more parts than the text behind `fuel`
has characters. -/
def value : (fuel : List Char) → (depth : Nat) → Scanner Value
  | [], _, _ => none
  | _ :: fuel, depth, text =>
    match text, depth with
    | '"' :: _, _ => (stringValue text).map fun (read, rest) => (.string read, rest)
    | '\'' :: _, _ => (stringValue text).map fun (read, rest) => (.string read, rest)
    | '[' :: _, 0 => none
    | '[' :: rest, depth + 1 => arrayItems fuel depth [] rest
    | '\x7b' :: _, 0 => none
    | '\x7b' :: rest, depth + 1 =>
      match skipBlanks rest with
      | '\x7d' :: rest => some (.table .inline [], rest)
      | rest => inlineEntries fuel depth [] rest
    | text, _ => (scalar text).map fun rest => (.scalar, rest)

/-- The rest of a list behind the items read before (last first). A comma may follow the last. -/
def arrayItems : (fuel : List Char) → (depth : Nat) → (read : List Value) → Scanner Value
  | [], _, _, _ => none
  | _ :: fuel, depth, read, text => do
    match ← skipLines false text with
    | ']' :: rest => return (.array read.reverse, rest)
    | text =>
      let (item, rest) ← value fuel depth text
      match ← skipLines false rest with
      | ']' :: rest => return (.array (item :: read).reverse, rest)
      | ',' :: rest => arrayItems fuel depth (item :: read) rest
      | _ => none

/-- The rest of a table in braces behind the entries read before. -/
def inlineEntries : (fuel : List Char) → (depth : Nat) → (read : Entries) → Scanner Value
  | [], _, _, _ => none
  | _ :: fuel, depth, read, text => do
    let (path, rest) ← keyPath text
    match rest with
    | '=' :: rest =>
      let (item, rest) ← value fuel depth (skipBlanks rest)
      let read ← read.insertPath path item
      match skipBlanks rest with
      | '\x7d' :: rest => return (.table .inline read, rest)
      | ',' :: rest => inlineEntries fuel depth read rest
      | _ => none
    | _ => none

end

/-- What has been read of a document. -/
structure Document where
  /-- The path of the table that entries are added to. -/
  current : List String := []
  /-- The entries of the outermost table. -/
  entries : Entries := []

/-- Reads one header or one entry, which has a line for itself. -/
def Document.extend (document : Document) (text : List Char) : Option (Document × List Char) :=
  match text with
  | '[' :: '[' :: rest => do
    let (path, rest) ← keyPath rest
    match rest with
    | ']' :: ']' :: rest =>
      return (⟨path, ← document.entries.openElement path⟩, ← endOfLine rest)
    | _ => none
  | '[' :: rest => do
    let (path, rest) ← keyPath rest
    match rest with
    | ']' :: rest => return (⟨path, ← document.entries.openTable path⟩, ← endOfLine rest)
    | _ => none
  | text => do
    let (path, rest) ← keyPath text
    match rest with
    | '=' :: rest =>
      let (item, rest) ← value text maximumDepth (skipBlanks rest)
      let entries ← document.entries.within .implicit (Entries.insertPath path item) document.current
      return ({ document with entries := entries }, ← endOfLine rest)
    | _ => none

/-- Reads headers and entries up to the end of the text. There are no more of them than the text
behind `fuel` has characters. -/
def Document.readFrom (document : Document) : (fuel : List Char) → List Char → Option Entries
  | [], text => do if (← skipLines false text).isEmpty then some document.entries else none
  | _ :: fuel, text => do
    match ← skipLines false text with
    | [] => return document.entries
    | text =>
      let (document, rest) ← document.extend text
      document.readFrom fuel rest

/-- The entries of a document, if it has no fault. A mark of byte order may stand in front. -/
def parse? (text : String) : Option Entries :=
  let characters := match text.toList with
    | '\ufeff' :: rest => rest
    | characters => characters
  Document.readFrom {} characters characters

end SeededGarbling.Toml
