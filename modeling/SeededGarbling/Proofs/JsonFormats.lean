import SeededGarbling.Proofs.JsonCompact

/-!
# Lawful formats

A format is lawful if what it writes for a value is compact and spells the value. The formats of
lists, options, choices and maps are lawful as soon as those of their parts are.
-/

namespace SeededGarbling.Json

open Reader

section Names

/-- The name of a member of a choice is taken for it. -/
theorem ofName_name {α : Type} [NamedChoice α] [LawfulNamedChoice α] (choice : α) :
    Format.ofName (NamedChoice.name choice) = .ok choice := by
  unfold Format.ofName
  rw [LawfulNamedChoice.ofName?_name]

/-- The name under which a map has the entry of a wire: its number. -/
def wireName (key : Wire) : String :=
  String.ofList (writeNatural key.toNat)

/-- The number of a wire is read off a name. -/
theorem run_readWireKey (key : Wire) (rest : List Char) :
    Format.readWireKey.run (writeString (wireName key) ++ rest) = .ok (key, rest) := by
  have hnumber : naturalFront UInt32.size (writeNatural key.toNat ++ (['"'] ++ rest)) =
      some (key.toNat, ['"'] ++ rest) :=
    naturalFront_writeNatural key.toNat_lt (ends_cons rfl rfl _)
  have htext : writeString (wireName key) ++ rest =
      '"' :: (writeNatural key.toNat ++ (['"'] ++ rest)) := by
    simp [writeString, wireName]
  unfold Format.readWireKey
  rw [htext, run_bind_of_reads (run_mark rfl), run_bind_of_reads (run_ofOption hnumber),
    run_bind_of_reads (run_exactly ['"'] _), UInt32.ofNat_toNat]
  rfl

/-- Digits stand for themselves. -/
theorem plain_wireName (key : Wire) : Plain (wireName key) := by
  unfold Plain wireName
  rw [String.toList_ofList, List.all_eq_true]
  intro c hc
  have hdigit := isDigit_of_mem_writeNatural hc
  have hblank := isBlank_of_opensValue (opensValue_of_isDigit hdigit)
  have hlow : 0x20 ≤ c.toNat := by
    simp only [Char.isDigit, Bool.and_eq_true, decide_eq_true_eq] at hdigit
    exact Nat.le_trans (by decide) (UInt32.le_iff_toNat_le.mp hdigit.1)
  simp [isPlain, hblank, hlow, @ne_of_isDigit c '"' hdigit rfl, @ne_of_isDigit c '\\' hdigit rfl]

end Names

namespace Spells

variable {α β : Type} {format : Format α} {text : List Char} {texts : List (List Char)}
  {value : α} {values : List α}

/-- A literal spells its value where it is looked for first. -/
theorem literal {c : Char} (h : opensValue c = true) (body : List Char) (value : α)
    (others : Reader α) :
    Spells (do
      if (← peek) = some c then
        exactly (c :: body)
        return value
      else
        others) (c :: body) value := by
  refine ⟨⟨c, body, rfl, h⟩, fun rest _ => ?_⟩
  rw [List.cons_append, run_bind_of_reads (run_peek (isBlank_of_opensValue h)), if_pos rfl]
  exact run_bind_of_reads (run_exactly (c :: body) rest) fun _ => pure value

/-- Truth values are spelled by their literals. -/
theorem bool (value : Bool) : Spells Format.bool.read (Format.bool.write value) value := by
  cases value with
  | true => exact literal rfl ['r', 'u', 'e'] true _
  | false =>
    refine ⟨⟨_, _, rfl, rfl⟩, fun rest _ => ?_⟩
    change ((peek >>= fun next => _).run ('f' :: _)) = _
    rw [run_bind_of_reads (run_peek rfl), if_neg (by decide)]
    exact run_bind_of_reads (run_exactly ['f', 'a', 'l', 's', 'e'] rest) fun _ => pure false

/-- The absence of a value is spelled by a literal. -/
theorem none (format : Format α) :
    Spells (Format.option format).read ['n', 'u', 'l', 'l'] Option.none :=
  literal rfl ['u', 'l', 'l'] Option.none _

/-- A value that is there is spelled as itself, if its text cannot be taken for the literal. -/
theorem some (h : Spells format.read text value) (hnull : text.head? ≠ .some 'n') :
    Spells (Format.option format).read text (.some value) := by
  refine ⟨h.opens, fun rest hrest => ?_⟩
  have hread := run_map_of_reads (h.run rest hrest) Option.some
  obtain ⟨c, body, rfl, hc⟩ := h.opens
  change ((peek >>= fun next => _).run (c :: (body ++ rest))) = _
  rw [run_bind_of_reads (run_peek (isBlank_of_opensValue hc)), if_neg (by simpa using hnull)]
  exact hread

/-- A list is spelled by its items in brackets. -/
theorem list (h : List.Forall₂ (Spells format.read) texts values) :
    Spells (Format.list format).read (Format.writeItems '[' ']' texts) values := by
  refine ⟨⟨_, _, rfl, rfl⟩, fun rest _ => ?_⟩
  change ((mark '[' >>= fun _ => items ']' format.read).run _) = _
  rw [writeItems_append, run_bind_of_reads (run_mark rfl), run_items (.inl rfl) h]

/-- A list of the right length spells a vector. -/
theorem vector {n : Nat} {values : Vector α n}
    (h : Spells (Format.list format).read text values.toList) :
    Spells (Format.vector n format).read text values := by
  refine h.bind_pure ?_
  rw [dif_pos Vector.length_toList]
  rfl

/-- A member of a choice is spelled by its name. -/
theorem choice [NamedChoice α] [LawfulNamedChoice α] (h : Plain (NamedChoice.name value)) :
    Spells Format.choice.read (writeString (NamedChoice.name value)) value := by
  refine ⟨⟨_, _, rfl, rfl⟩, fun rest _ => ?_⟩
  have hname := run_string h rest
  change ((peek >>= fun next => _).run ('"' :: _)) = _
  rw [run_bind_of_reads (run_peek rfl), if_neg (by decide)]
  change ((string >>= fun name => MonadExcept.ofExcept (Format.ofName name)).run
    (writeString (NamedChoice.name value) ++ rest)) = _
  rw [run_bind_of_reads hname, run_ofExcept (ofName_name value)]

/-- An entry of a map is spelled by the name of its wire and its value. -/
theorem entry {value : β} {format : Format β} (key : Wire) (h : Spells format.read text value) :
    Spells (Format.readEntry format) (writeEntry (wireName key, text)) (key, value) := by
  refine ⟨⟨_, _, rfl, rfl⟩, fun rest hrest => ?_⟩
  unfold Format.readEntry
  rw [writeEntry_append, run_bind_of_reads (run_readWireKey key _),
    run_bind_of_reads (run_mark rfl), run_bind_of_reads (h.run rest hrest)]
  rfl

/-- A map is spelled by its entries in braces. They may come in any order, and the last one for a
wire counts. -/
theorem wireMap {format : Format β} {entries : List (Wire × β)}
    (h : List.Forall₂ (Spells (Format.readEntry format)) texts entries) :
    Spells (Format.wireMap format).read (Format.writeItems '{' '}' texts) (.ofList entries) := by
  refine ⟨⟨_, _, rfl, rfl⟩, fun rest _ => ?_⟩
  have hentries := run_map_of_reads (run_items (.inr rfl) h rest) fun entries =>
    (Std.ExtTreeMap.ofList entries : WireMap β)
  rw [map_eq_pure_bind] at hentries
  rw [writeItems_append]
  unfold Format.wireMap
  rw [run_bind_of_reads (run_mark rfl)]
  exact hentries

end Spells

namespace Format

variable {α β : Type} {format : Format α}

/-- Every value is written as a compact text that spells it. -/
structure Lawful (format : Format α) : Prop where
  /-- What is written for a value spells it. -/
  spells : ∀ value, Spells format.read (format.write value) value
  /-- It is the text of some value even for who does not know the format. -/
  compact : ∀ value, Compact (format.write value)

/-- The texts of values spell them, one by one. -/
theorem Lawful.spells_map (h : format.Lawful) (values : List α) :
    List.Forall₂ (Spells format.read) (values.map format.write) values :=
  List.forall₂_map_left_iff.mpr (List.forall₂_same.mpr fun value _ => h.spells value)

/-- Values of another type are written and read like those that they are made of. -/
theorem Lawful.imap (h : format.Lawful) {into : α → β} {out : β → α}
    (hinto : ∀ value, into (out value) = value) : (format.imap into out).Lawful where
  spells value := by
    have hspells := (h.spells (out value)).map into
    rwa [hinto] at hspells
  compact value := h.compact (out value)

theorem lawful_byte : byte.Lawful where
  spells value := by
    have hspells := (Spells.natural value.toNat_lt).map UInt8.ofNat
    rwa [UInt8.ofNat_toNat] at hspells
  compact _ := compact_writeNatural _

theorem lawful_wire : wire.Lawful where
  spells value := by
    have hspells := (Spells.natural value.toNat_lt).map UInt32.ofNat
    rwa [UInt32.ofNat_toNat] at hspells
  compact _ := compact_writeNatural _

theorem lawful_bool : bool.Lawful where
  spells := Spells.bool
  compact value := compact_literal (by cases value <;> simp [bool])

/-- A value that may be absent can be told from the literal if its text begins otherwise. -/
theorem Lawful.option (h : format.Lawful) (hnull : ∀ value, (format.write value).head? ≠ some 'n') :
    (option format).Lawful where
  spells
    | none => Spells.none format
    | some value => (h.spells value).some (hnull value)
  compact
    | none => compact_literal (.tail _ (.tail _ (.head _)))
    | some value => h.compact value

theorem Lawful.list (h : format.Lawful) : (list format).Lawful where
  spells values := Spells.list (h.spells_map values)
  compact _ := compact_array (List.forall_mem_map.mpr fun value _ => h.compact value)

theorem Lawful.vector (h : format.Lawful) (n : Nat) : (vector n format).Lawful where
  spells values := Spells.vector (h.list.spells values.toList)
  compact values := h.list.compact values.toList

theorem lawful_choice [NamedChoice α] [LawfulNamedChoice α]
    (h : ∀ value : α, Plain (NamedChoice.name value)) : (choice : Format α).Lawful where
  spells value := Spells.choice (h value)
  compact value := compact_writeString (h value)

/-- A map is the map of the entries that it lists. -/
theorem ofList_toList (entries : WireMap β) : Std.ExtTreeMap.ofList entries.toList = entries := by
  apply Std.ExtTreeMap.ext_getElem?
  intro wire
  cases hvalue : entries[wire]? with
  | none =>
    apply Std.ExtTreeMap.getElem?_ofList_of_contains_eq_false
    rw [Std.ExtTreeMap.map_fst_toList_eq_keys, Std.ExtTreeMap.contains_keys]
    rwa [← Std.ExtTreeMap.isSome_getElem?_eq_contains, Option.isSome_eq_false_iff,
      Option.isNone_iff_eq_none]
  | some value =>
    apply Std.ExtTreeMap.getElem?_ofList_of_mem Std.ReflCmp.compare_self
      Std.ExtTreeMap.distinct_keys_toList
    exact Std.ExtTreeMap.mem_toList_iff_getElem?_eq_some.mpr hvalue

/-- A map is written as an object whose entries have the names of the wires. -/
theorem write_wireMap (format : Format β) (entries : WireMap β) :
    (wireMap format).write entries = writeItems '{' '}' ((entries.toList.map fun entry =>
      (wireName entry.1, format.write entry.2)).map writeEntry) := by
  rw [List.map_map]
  change writeItems '{' '}' (entries.toList.map _) = _
  congr 1
  refine List.map_congr_left fun entry _ => ?_
  simp [writeEntry, writeString, wireName]

theorem Lawful.wireMap {format : Format β} (h : format.Lawful) : (wireMap format).Lawful where
  spells entries := by
    have hspells : List.Forall₂ (Spells (readEntry format))
        ((entries.toList.map fun entry => (wireName entry.1, format.write entry.2)).map writeEntry)
        entries.toList := by
      rw [List.map_map]
      exact List.forall₂_map_left_iff.mpr <| List.forall₂_same.mpr fun entry _ =>
        Spells.entry entry.1 (h.spells entry.2)
    have hmap := Spells.wireMap hspells
    rwa [ofList_toList, ← write_wireMap] at hmap
  compact entries := by
    rw [write_wireMap]
    exact compact_object (List.forall_mem_map.mpr fun entry _ =>
      ⟨plain_wireName entry.1, h.compact entry.2⟩)

/-- A whole text that spells a value is read as the value. -/
theorem parse_of_spells {text : List Char} {value : α} (h : Spells format.read text value) :
    format.parse (String.ofList text) = .ok value := by
  have hread := h.run [] ends_nil
  rw [List.append_nil] at hread
  unfold parse whole
  rw [String.toList_ofList, hread]
  rfl

/-- One that is refused is refused for the same cause. -/
theorem parse_of_refuses {text : List Char} {cause : ReadError}
    (h : format.read.run text = .error cause) :
    format.parse (String.ofList text) = .error cause := by
  unfold parse whole
  rw [String.toList_ofList, h]
  rfl

/-- A value is read back from what is written for it. -/
theorem Lawful.parse_print (h : format.Lawful) (value : α) :
    format.parse (format.print value) = .ok value :=
  parse_of_spells (h.spells value)

end Format

end SeededGarbling.Json
