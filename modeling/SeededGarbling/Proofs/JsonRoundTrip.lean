import SeededGarbling.Proofs.JsonForms
import SeededGarbling.Text.Json.Values

/-!
# What is written is read back

All formats of exchanged values are lawful, so every value can be read off what is written for it. A
text may be written in many ways; whichever of them a value was read from, it is written in the same
way from then on.
-/

namespace SeededGarbling.Json.Format

section Values

theorem lawful_truthTable : truthTable.Lawful :=
  lawful_byte.imap fun _ => rfl

theorem lawful_gateRecord : gateRecord.Lawful where
  members := ⟨rfl, by decide, lawful_wire.vector 2, rfl, by decide, lawful_wire, rfl, by decide,
    lawful_truthTable, trivial⟩
  into_out _ := rfl

theorem lawful_gate : gate.Lawful :=
  lawful_gateRecord.format

theorem lawful_circuitRecord : circuitRecord.Lawful where
  members := ⟨rfl, by decide, lawful_gate.list, rfl, by decide, lawful_wire.list, rfl, by decide,
    lawful_wire.list, trivial⟩
  into_out _ := rfl

/-- The bytes of a slot begin with a bracket, so they are told from the literal of an absent slot. -/
theorem lawful_tableSetRecord : tableSetRecord.Lawful where
  members := by
    have hslot : (option (list byte)).Lawful := lawful_byte.list.option fun bytes => by
      change some '[' ≠ some 'n'
      decide
    exact ⟨rfl, by decide, hslot.list, trivial⟩
  into_out _ := rfl

theorem lawful_decodingRecord : decodingRecord.Lawful where
  members := ⟨rfl, by decide, lawful_bool.wireMap, trivial⟩
  into_out _ := rfl

theorem lawful_label : label.Lawful :=
  lawful_byte.vector 16

theorem lawful_wireLabelsRecord : wireLabelsRecord.Lawful where
  members := ⟨rfl, by decide, lawful_label.vector 2, rfl, by decide, lawful_bool, trivial⟩
  into_out _ := rfl

theorem lawful_configRecord : configRecord.Lawful where
  members := by
    have hprg : (choice : Format PrgAlgorithm).Lawful :=
      lawful_choice fun algorithm => by cases algorithm <;> rfl
    have hprf : (choice : Format PrfAlgorithm).Lawful :=
      lawful_choice fun algorithm => by cases algorithm <;> rfl
    have hhash : (choice : Format HashAlgorithm).Lawful :=
      lawful_choice fun algorithm => by cases algorithm <;> rfl
    exact ⟨rfl, by decide, hprg, rfl, by decide, hprf, rfl, by decide, hhash, trivial⟩
  into_out _ := rfl

end Values

/-- Every record among the values that are exchanged is read off all its forms. -/
theorem records_read_forms :
    circuitRecord.ReadsForms ∧ gateRecord.ReadsForms ∧ tableSetRecord.ReadsForms ∧
      decodingRecord.ReadsForms ∧ wireLabelsRecord.ReadsForms ∧ configRecord.ReadsForms :=
  ⟨lawful_circuitRecord.readsForms, lawful_gateRecord.readsForms, lawful_tableSetRecord.readsForms,
    lawful_decodingRecord.readsForms, lawful_wireLabelsRecord.readsForms,
    lawful_configRecord.readsForms⟩

/-- A configuration may leave out what is at its default, and has no other members. -/
example :
    config.parse "\x7b\"hash\":\"sha256\"\x7d" = .ok { (default : GarblingConfig) with hash := .sha256 } ∧
    config.parse "\x7b\"hash\":\"sha256\",\"seed\":7\x7d" =
      .error (.unknownField "seed" ["prg", "prf", "hash"]) := by
  decide +kernel

variable {α : Type}

/-- Values are read back from what is written for them, and every text that is read comes to a form
that writing and reading keep. -/
structure RoundTrips (format : Format α) : Prop where
  /-- No blanks are written. -/
  compact : ∀ value, ∀ c ∈ (format.print value).toList, isBlank c = false
  /-- What is written for a value is read as the value. -/
  parse_print : ∀ value, format.parse (format.print value) = .ok value
  /-- Whatever text a value is read from, what is written for it is read as the same value, for which
  the same is written again. -/
  reparse : ∀ text value, format.parse text = .ok value →
    ∃ again, format.parse (format.print value) = .ok again ∧ again = value ∧
      format.print again = format.print value

theorem Lawful.roundTrips {format : Format α} (h : format.Lawful) : format.RoundTrips where
  compact value c hc := by
    rw [print, String.toList_ofList] at hc
    exact (h.compact value).unspaced c hc
  parse_print := h.parse_print
  reparse _ value _ := ⟨value, h.parse_print value, rfl, rfl⟩

/-- All values that are exchanged are read back from what is written for them. -/
theorem values_round_trip :
    circuit.RoundTrips ∧ gate.RoundTrips ∧ truthTable.RoundTrips ∧ tableSet.RoundTrips ∧
      decodingTable.RoundTrips ∧ label.RoundTrips ∧ wireLabels.RoundTrips ∧ config.RoundTrips :=
  ⟨lawful_circuitRecord.format.roundTrips, lawful_gate.roundTrips, lawful_truthTable.roundTrips,
    lawful_tableSetRecord.format.roundTrips, lawful_decodingRecord.format.roundTrips,
    lawful_label.roundTrips, lawful_wireLabelsRecord.format.roundTrips,
    lawful_configRecord.format.roundTrips⟩

/-- A gate whose members come in another order, with blanks and with a note that nobody asks for, is
written as every gate, and so is one that is given as an array. -/
theorem values_round_trip_noted_gate :
    gate.parse
      "\x7b\"output\": 2, \"note\": [1.5, null], \"truth_table\": 200, \"inputs\": [0, 1]\x7d" =
        .ok ⟨0, 1, 2, ⟨200⟩⟩ ∧
    gate.parse "[[0, 1], 2, 200]" = .ok ⟨0, 1, 2, ⟨200⟩⟩ ∧
    gate.print ⟨0, 1, 2, ⟨200⟩⟩ = "\x7b\"inputs\":[0,1],\"output\":2,\"truth_table\":200\x7d" ∧
    ∃ again, gate.parse (gate.print ⟨0, 1, 2, ⟨200⟩⟩) = .ok again ∧ again = ⟨0, 1, 2, ⟨200⟩⟩ ∧
      gate.print again = gate.print ⟨0, 1, 2, ⟨200⟩⟩ := by
  refine ⟨by decide +kernel, by decide +kernel, by decide, ?_⟩
  exact values_round_trip.2.1.reparse "[[0, 1], 2, 200]" _ (by decide +kernel)

end SeededGarbling.Json.Format
