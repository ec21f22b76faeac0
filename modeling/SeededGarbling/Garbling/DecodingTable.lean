import SeededGarbling.Circuit.Basic

/-!
# Decoding tables

A decoding table holds the permute bit of each output wire, which turns the signal bit found on the
wire into its value.
-/

namespace SeededGarbling

/-- Permute bits of output wires. -/
structure DecodingTable where
  /-- One entry per wire. -/
  entries : WireMap Bool
  deriving DecidableEq

namespace DecodingTable

/-- No entries. -/
def empty : DecodingTable :=
  ⟨∅⟩

/-- The table with the given entries; a later entry for a wire replaces an earlier one. -/
def ofList (entries : List (Wire × Bool)) : DecodingTable :=
  ⟨.ofList entries⟩

/-- The entries, in the order of the wires. -/
def toList (table : DecodingTable) : List (Wire × Bool) :=
  table.entries.toList

/-- The permute bit of a wire. -/
def get? (table : DecodingTable) (wire : Wire) : Option Bool :=
  table.entries[wire]?

/-- The value of a wire that carries a signal bit. -/
def decode (table : DecodingTable) (wire : Wire) (signal : Bool) : Option Bool :=
  (table.get? wire).map (signal ^^ ·)

/-- How many wires have an entry. -/
def size (table : DecodingTable) : Nat :=
  table.entries.size

/-- Whether no wire has an entry. -/
def isEmpty (table : DecodingTable) : Bool :=
  table.entries.isEmpty

/-- Whether the given wires, however often listed, are those that have an entry. -/
def coversExactly (table : DecodingTable) (wires : List Wire) : Bool :=
  wires.all table.entries.contains && table.entries.keys.all wires.contains

/-- Coverage in terms of look-up. -/
theorem coversExactly_iff (table : DecodingTable) (wires : List Wire) :
    table.coversExactly wires = true ↔ ∀ wire, wire ∈ wires ↔ (table.get? wire).isSome = true := by
  simp only [coversExactly, get?, Bool.and_eq_true, List.all_eq_true, List.contains_iff_mem,
    Std.ExtTreeMap.mem_keys, Std.ExtTreeMap.isSome_getElem?_iff_mem, ← Std.ExtTreeMap.mem_iff_contains]
  exact ⟨fun ⟨h, h'⟩ wire => ⟨h wire, h' wire⟩, fun h => ⟨fun w => (h w).mp, fun w => (h w).mpr⟩⟩

end DecodingTable

end SeededGarbling
