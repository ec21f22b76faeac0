import SeededGarbling.Bytes

/-!
# Sets of garbled tables

One slot per gate holds that gate's table or is empty. A table is a byte string of any length, since
it may have been received from someone else.
-/

namespace SeededGarbling

/-- The garbled tables of a circuit, in gate order. -/
structure TableSet where
  /-- One slot per gate. -/
  slots : List (Option Bytes)
  deriving DecidableEq, Repr

namespace TableSet

/-- Only empty slots. -/
def empty (gates : Nat) : TableSet :=
  ⟨List.replicate gates none⟩

/-- No empty slot. -/
def ofTables (tables : List Bytes) : TableSet :=
  ⟨tables.map some⟩

/-- How many slots there are. -/
def size (tables : TableSet) : Nat :=
  tables.slots.length

/-- Whether there is no slot at all. -/
def isEmpty (tables : TableSet) : Bool :=
  tables.slots.isEmpty

/-- The table of a gate, if its slot exists and holds one. -/
def get? (tables : TableSet) (gate : Nat) : Option Bytes :=
  tables.slots[gate]?.join

/-- Edits the table of a gate; an empty slot stays empty. -/
def modify (tables : TableSet) (gate : Nat) (edit : Bytes → Bytes) : TableSet :=
  ⟨tables.slots.modify gate (Option.map edit)⟩

/-- Whether every slot holds a table. -/
def isComplete (tables : TableSet) : Bool :=
  tables.slots.all Option.isSome

/-- The tables that are there, in gate order. -/
def present (tables : TableSet) : List Bytes :=
  tables.slots.filterMap id

@[simp] theorem size_ofTables (tables : List Bytes) : (ofTables tables).size = tables.length := by
  simp [ofTables, size]

@[simp] theorem size_empty (gates : Nat) : (empty gates).size = gates := by
  simp [empty, size]

@[simp] theorem present_ofTables (tables : List Bytes) : (ofTables tables).present = tables := by
  simp [ofTables, present]

@[simp] theorem isComplete_ofTables (tables : List Bytes) : (ofTables tables).isComplete = true := by
  simp [ofTables, isComplete]

@[simp] theorem get?_ofTables (tables : List Bytes) (gate : Nat) :
    (ofTables tables).get? gate = tables[gate]? := by
  cases h : tables[gate]? <;> simp [ofTables, get?, h]

/-- Editing a table adds and removes none. -/
@[simp] theorem size_modify (tables : TableSet) (gate : Nat) (edit : Bytes → Bytes) :
    (tables.modify gate edit).size = tables.size := by
  simp [modify, size]

end TableSet

end SeededGarbling
