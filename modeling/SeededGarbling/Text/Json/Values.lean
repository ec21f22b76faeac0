import SeededGarbling.Garbling.Config
import SeededGarbling.Garbling.DecodingTable
import SeededGarbling.Garbling.Label
import SeededGarbling.Garbling.TableSet
import SeededGarbling.Text.Json.Record

/-!
# The values that are exchanged as JSON

Truth tables are written as a byte, which is not cut to its four low bits. Wires that name entries
are written in quotes. All records skip members that they do not know, but configurations, of which
every member has a default, refuse them.
-/

namespace SeededGarbling.Json.Format

/-- Truth tables. -/
def truthTable : Format TruthTable :=
  byte.imap TruthTable.mk TruthTable.bits

/-- Gates, as records. -/
def gateRecord : Record Gate where
  members := .cons "inputs" (vector 2 wire) none <|
    .cons "output" wire none <| .cons "truth_table" truthTable none .nil
  strict := false
  into := fun (operands, output, table, ()) => ⟨operands[0], operands[1], output, table⟩
  out := fun gate => (#v[gate.left, gate.right], gate.output, gate.table, ())

/-- Gates. -/
def gate : Format Gate :=
  gateRecord.format

/-- Circuits, as records. -/
def circuitRecord : Record Circuit where
  members := .cons "gates" (list gate) none <|
    .cons "input_wires" (list wire) none <| .cons "output_wires" (list wire) none .nil
  strict := false
  into := fun (gates, inputs, outputs, ()) => ⟨gates, inputs, outputs⟩
  out := fun circuit => (circuit.gates, circuit.inputs, circuit.outputs, ())

/-- Circuits. -/
def circuit : Format Circuit :=
  circuitRecord.format

/-- Sets of garbled tables, as records. -/
def tableSetRecord : Record TableSet where
  members := .cons "slots" (list (option (list byte))) none .nil
  strict := false
  into := fun (slots, ()) => ⟨slots⟩
  out := fun tables => (tables.slots, ())

/-- Sets of garbled tables. -/
def tableSet : Format TableSet :=
  tableSetRecord.format

/-- Decoding tables, as records. -/
def decodingRecord : Record DecodingTable where
  members := .cons "entries" (wireMap bool) none .nil
  strict := false
  into := fun (entries, ()) => ⟨entries⟩
  out := fun table => (table.entries, ())

/-- Decoding tables. -/
def decodingTable : Format DecodingTable :=
  decodingRecord.format

/-- Labels. -/
def label : Format Label :=
  vector 16 byte

/-- The labels of a wire, as records. -/
def wireLabelsRecord : Record WireLabels where
  members := .cons "labels" (vector 2 label) none <| .cons "permute_bit" bool none .nil
  strict := false
  into := fun (labels, permute, ()) => ⟨labels[0], labels[1], permute⟩
  out := fun labels => (#v[labels.zero, labels.one], labels.permute, ())

/-- The labels of a wire. -/
def wireLabels : Format WireLabels :=
  wireLabelsRecord.format

/-- Configurations, as records. -/
def configRecord : Record GarblingConfig where
  members := .cons "prg" choice (some default) <|
    .cons "prf" choice (some default) <| .cons "hash" choice (some default) .nil
  strict := true
  into := fun (prg, prf, hash, ()) => ⟨prg, prf, hash⟩
  out := fun config => (config.prg, config.prf, config.hash, ())

/-- Configurations. -/
def config : Format GarblingConfig :=
  configRecord.format

end SeededGarbling.Json.Format
