import Mathlib.Data.List.Dedup
import SeededGarbling.Proofs.Audit
import SeededGarbling.Proofs.Installation
import SeededGarbling.Proofs.Instances
import SeededGarbling.Proofs.Session

/-!
# The life of a garbled circuit

A garbled circuit is made blank or put together from parts, and then garbled, checked, edited and
copied any number of times, each time with a generator and a hasher of its own. The invariant is that
it has the wires and the slots of the circuit that it was made for, and decodes nothing or exactly the
outputs. Slots are filled only by a garbling that succeeds, which fills all of them; so whatever is
garbled stays garbled.
-/

namespace SeededGarbling

/-- Coverage in terms of the entries: there is one for each output, however often it is listed. -/
theorem DecodingTable.coversExactly_iff_perm (table : DecodingTable) (wires : List Wire) :
    table.coversExactly wires = true ↔ table.entries.keys.Perm wires.dedup := by
  rw [coversExactly_iff,
    List.perm_ext_iff_of_nodup Std.ExtTreeMap.nodup_keys (List.nodup_dedup wires)]
  refine forall_congr' fun wire => ?_
  rw [List.mem_dedup, Std.ExtTreeMap.mem_keys, get?, Std.ExtTreeMap.isSome_getElem?_iff_mem]
  exact iff_comm

/-- Which slots hold a table. -/
def TableSet.presence (tables : TableSet) : List Bool :=
  tables.slots.map Option.isSome

/-- Editing a table leaves it where it is. -/
theorem TableSet.presence_modify (tables : TableSet) (gate : Nat) (change : Bytes → Bytes) :
    (tables.modify gate change).presence = tables.presence := by
  apply List.ext_getElem?
  intro i
  rw [presence, modify, List.getElem?_map, List.getElem?_modify, presence, List.getElem?_map]
  cases tables.slots[i]? with
  | none => rfl
  | some slot =>
    by_cases hgate : gate = i
    · cases slot <;> simp [hgate]
    · simp [hgate]

/-- Whether all slots hold a table can be seen from which of them do. -/
theorem TableSet.isComplete_eq_presence (tables : TableSet) :
    tables.isComplete = tables.presence.all id := by
  rw [presence, List.all_map]
  rfl

/-- What can be done with a garbled circuit. -/
inductive Task where
  /-- To garble a circuit into it. -/
  | garble (algorithm : PrfAlgorithm) (circuit : Circuit) (seed : Bytes)
  /-- To check a seed against a commitment. -/
  | checkSeed (algorithm : PrfAlgorithm) (circuit : Circuit) (seed committed : Bytes)
  /-- To check its tables against a commitment. -/
  | checkTables (committed : Bytes)
  /-- To edit a table that is there, or to put another one in its place. -/
  | edit (gate : Nat) (change : Bytes → Bytes)

/-- What a task yields. -/
inductive Reply where
  /-- What the garbler keeps. -/
  | values (values : CreationValues)
  /-- Whether a check accepts. -/
  | verdict (accepted : Bool)
  /-- Nothing. -/
  | done

/-- Carries out a task with the garbled circuit that is held. -/
def Task.run {γ : Type} [Generator γ] : Task → ExceptT GarbleError (StateM (Bench γ)) Reply
  | garble algorithm circuit seed => .values <$> garbleInPlace algorithm circuit seed
  | checkSeed algorithm circuit seed committed =>
    .verdict <$> Bench.onWorkspace (Audit.checkSeed algorithm circuit seed committed)
  | checkTables committed => do
    let held := (← get).garbled
    .verdict <$> Bench.onWorkspace (Run.onHasher fun hasher => held.checkTables hasher committed)
  | edit gate change => do
    modify fun bench => { bench with garbled := bench.garbled.modifyTable gate change }
    return .done

namespace GarbledCircuit

/-- A garbled circuit holds what was garbled into it last. -/
structure Filled (garbled : GarbledCircuit) (values : CreationValues) : Prop where
  /-- Every slot holds a table of four rows. -/
  tables : ∀ slot ∈ garbled.tables.slots, ∃ table, slot = some table ∧ table.length = tableLength
  /-- The decoding table is the one that the garbler keeps. -/
  decoding : garbled.decoding = values.decoding
  /-- There is an entry for each output. -/
  covers : garbled.decoding.entries.keys.Perm garbled.outputs.dedup
  /-- Hence the circuit is garbled. -/
  isGarbled : garbled.isGarbled = true

/-- What a task makes of a garbled circuit, depending on what it yields. -/
structure Continues (before after : GarbledCircuit) (reply : Except GarbleError Reply) : Prop where
  /-- The input wires are the same. -/
  inputs : after.inputs = before.inputs
  /-- So are the output wires. -/
  outputs : after.outputs = before.outputs
  /-- There are as many slots. -/
  size : after.tables.size = before.tables.size
  /-- A garbling that succeeds fills them. -/
  filled : ∀ values, reply = .ok (.values values) → after.Filled values
  /-- Otherwise the tables are where they were, and the decoding table is the same. -/
  kept : (∀ values, reply ≠ .ok (.values values)) →
    after.tables.presence = before.tables.presence ∧ after.decoding = before.decoding

/-- A garbled circuit has the shape of a circuit. -/
structure Belongs (garbled : GarbledCircuit) (circuit : Circuit) : Prop where
  /-- The input wires are those of the circuit. -/
  inputs : garbled.inputs = circuit.inputs
  /-- So are the output wires. -/
  outputs : garbled.outputs = circuit.outputs
  /-- There is a slot for every gate. -/
  size : garbled.tables.size = circuit.gateCount
  /-- There is no entry to decode with, or one for each output. -/
  decoding : garbled.decoding = .empty ∨ garbled.decoding.entries.keys.Perm circuit.outputs.dedup

variable {held before after garbled : GarbledCircuit} {circuit : Circuit}
  {reply : Except GarbleError Reply} {values : CreationValues}

/-- A blank one belongs to its circuit. -/
theorem belongs_blank (circuit : Circuit) : (blank circuit).Belongs circuit :=
  ⟨rfl, rfl, TableSet.size_empty _, Or.inl rfl⟩

/-- Parts make a garbled circuit if there is a slot for every gate and an entry for each output. -/
theorem ofParts_eq_ok_iff {tables : TableSet} {decoding : DecodingTable} :
    ofParts circuit tables decoding = .ok garbled ↔
      (tables.size = circuit.gateCount ∧ decoding.coversExactly circuit.outputs = true) ∧
        garbled = ⟨circuit.inputs, circuit.outputs, tables, decoding⟩ := by
  unfold ofParts
  by_cases hsize : tables.size = circuit.gateCount
  · rw [if_neg (not_not_intro hsize)]
    cases hcovers : decoding.coversExactly circuit.outputs <;> simp [hsize, eq_comm]
  · simp [hsize]

/-- What they make belongs to the circuit. -/
theorem belongs_of_ofParts {tables : TableSet} {decoding : DecodingTable}
    (h : ofParts circuit tables decoding = .ok garbled) : garbled.Belongs circuit := by
  obtain ⟨⟨hsize, hcovers⟩, rfl⟩ := ofParts_eq_ok_iff.mp h
  exact ⟨rfl, rfl, hsize, Or.inr ((DecodingTable.coversExactly_iff_perm _ _).mp hcovers)⟩

/-- A task leaves a garbled circuit with its circuit. -/
theorem Belongs.of_continues (h : before.Belongs circuit) (hcontinues : before.Continues after reply) :
    after.Belongs circuit where
  inputs := hcontinues.inputs.trans h.inputs
  outputs := hcontinues.outputs.trans h.outputs
  size := hcontinues.size.trans h.size
  decoding := by
    by_cases hreply : ∃ values, reply = .ok (.values values)
    · obtain ⟨values, hreply⟩ := hreply
      have hcovers := (hcontinues.filled values hreply).covers
      rw [hcontinues.outputs, h.outputs] at hcovers
      exact Or.inr hcovers
    · rw [(hcontinues.kept (not_exists.mp hreply)).2]
      exact h.decoding

/-- It does not undo a garbling. -/
theorem Continues.isGarbled (h : before.Continues after reply) (hgarbled : before.isGarbled = true) :
    after.isGarbled = true := by
  by_cases hreply : ∃ values, reply = .ok (.values values)
  · obtain ⟨values, hreply⟩ := hreply
    exact (h.filled values hreply).isGarbled
  · obtain ⟨hpresence, hdecoding⟩ := h.kept (not_exists.mp hreply)
    rw [GarbledCircuit.isGarbled, TableSet.isComplete_eq_presence] at hgarbled ⊢
    rw [hpresence, hdecoding, h.outputs]
    exact hgarbled

/-- A task that yields nothing to keep and leaves the garbled circuit alone continues it. -/
theorem continues_self (hreply : ∀ values, reply ≠ .ok (.values values)) :
    held.Continues held reply :=
  ⟨rfl, rfl, rfl, fun values h => absurd h (hreply values), fun _ => ⟨rfl, rfl⟩⟩

variable {γ : Type} [Generator γ] {algorithm : PrfAlgorithm} {seed : Bytes}
  {workspace final : Workspace γ}

/-- A garbling that succeeds fills the slots that there are. -/
theorem continues_of_run_garble
    (h : (held.garble algorithm circuit seed).run workspace = (.ok (garbled, values), final)) :
    held.Continues garbled (.ok (.values values)) := by
  rcases held.admits_or_misfit circuit with hadmits | ⟨fault, hfault⟩
  · rw [run_garble_of_fit (checkShape_eq_ok hadmits.count hadmits.inputs hadmits.outputs),
      run_map] at h
    rcases hgarble : (Garbling.garble algorithm circuit seed).run workspace with ⟨cause | result, _⟩
    · rw [hgarble] at h
      cases h
    rw [hgarble] at h
    cases h
    obtain ⟨cipher, prepared, hprepare, hmade, _⟩ := Garbling.madeBy_of_run_garble hgarble
    have hsound := (Garbling.sound_of_cipherOfSeed (Garbling.run_prepare_eq_ok_iff.mp hprepare).2).1
    have hcovers := hmade.coversExactly hsound
    rw [hadmits.outputs] at hcovers
    refine ⟨rfl, rfl, hmade.size_tables.trans hadmits.count, ?_, ?_⟩
    · rintro _ ⟨rfl⟩
      refine ⟨hmade.exists_table, rfl, (DecodingTable.coversExactly_iff_perm _ _).mp hcovers, ?_⟩
      rw [isGarbled_iff, ← DecodingTable.coversExactly_iff]
      refine ⟨?_, hcovers⟩
      intro slot hslot
      obtain ⟨table, rfl, _⟩ := hmade.exists_table slot hslot
      rfl
    · exact fun hreply => absurd rfl (hreply _)
  · rw [hfault.run_garble] at h
    cases h

end GarbledCircuit

open GarbledCircuit

section Tasks

variable {γ : Type} [Generator γ]

/-- Every task continues the garbled circuit, whatever generator and hasher it is given. -/
theorem Task.continues (task : Task) (held : GarbledCircuit) (workspace : Workspace γ) :
    held.Continues (task.run.run ⟨held, workspace⟩).2.garbled (task.run.run ⟨held, workspace⟩).1 := by
  cases task with
  | garble algorithm circuit seed =>
    rw [run, run_map]
    rcases hgarble : (held.garble algorithm circuit seed).run workspace with
      ⟨cause | ⟨garbled, values⟩, final⟩
    · rw [run_garbleInPlace_of_error hgarble]
      exact continues_self fun values hvalues => nomatch hvalues
    · rw [run_garbleInPlace_of_ok hgarble]
      exact continues_of_run_garble hgarble
  | checkSeed algorithm circuit seed committed =>
    rw [run, run_map, Bench.run_onWorkspace]
    refine continues_self fun values hvalues => ?_
    cases hcheck : ((Audit.checkSeed algorithm circuit seed committed).run workspace).1 <;>
      rw [hcheck] at hvalues <;> cases hvalues
  | checkTables committed => exact continues_self fun values hvalues => nomatch hvalues
  | edit gate change =>
    refine ⟨rfl, rfl, TableSet.size_modify _ _ _, ?_, ?_⟩
    · exact fun values hvalues => nomatch hvalues
    · exact fun _ => ⟨TableSet.presence_modify _ _ _, rfl⟩

end Tasks

/-- What can happen on a shelf of garbled circuits. -/
inductive Move (γ : Type) where
  /-- A blank one is put there. -/
  | blank
  /-- One is put together from parts and put there, if they fit. -/
  | ofParts (tables : TableSet) (decoding : DecodingTable)
  /-- A copy of the one at a place is put there. -/
  | clone (place : Nat)
  /-- A task is carried out with the one at a place. -/
  | carryOut (place : Nat) (workspace : Workspace γ) (task : Task)

section Shelves

variable {γ : Type} [Generator γ]

/-- The shelf behind a move. All that is put there is made for one circuit. -/
def Move.on (circuit : Circuit) (shelf : List GarbledCircuit) : Move γ → List GarbledCircuit
  | blank => shelf ++ [.blank circuit]
  | ofParts tables decoding =>
    shelf ++ (GarbledCircuit.ofParts circuit tables decoding).toOption.toList
  | clone place => shelf ++ shelf[place]?.toList
  | carryOut place workspace task =>
    shelf.modify place fun held => (task.run.run ⟨held, workspace⟩).2.garbled

/-- The shelf behind several moves. -/
def shelfBehind (circuit : Circuit) (shelf : List GarbledCircuit) (moves : List (Move γ)) :
    List GarbledCircuit :=
  moves.foldl (Move.on circuit) shelf

variable {circuit : Circuit} {shelf : List GarbledCircuit} {place : Nat} {before : GarbledCircuit}

/-- What was at a place behind the moves so far goes on from there with the moves to come. -/
theorem shelfBehind_append (moves later : List (Move γ)) :
    shelfBehind circuit shelf (moves ++ later) =
      shelfBehind circuit (shelfBehind circuit shelf moves) later :=
  List.foldl_append

/-- A move keeps every garbled circuit with its circuit. -/
theorem Move.forall_belongs (h : ∀ garbled ∈ shelf, garbled.Belongs circuit) (move : Move γ) :
    ∀ garbled ∈ move.on circuit shelf, garbled.Belongs circuit := by
  intro garbled hgarbled
  cases move with
  | blank =>
    rcases List.mem_append.mp hgarbled with hold | hnew
    · exact h garbled hold
    · rw [List.mem_singleton.mp hnew]
      exact belongs_blank circuit
  | ofParts tables decoding =>
    rcases List.mem_append.mp hgarbled with hold | hnew
    · exact h garbled hold
    · cases hparts : GarbledCircuit.ofParts circuit tables decoding with
      | error fault =>
        rw [hparts] at hnew
        cases hnew
      | ok made =>
        rw [hparts] at hnew
        rw [List.mem_singleton.mp hnew]
        exact belongs_of_ofParts hparts
  | clone place =>
    rcases List.mem_append.mp hgarbled with hold | hnew
    · exact h garbled hold
    · exact h garbled (List.mem_of_getElem? (Option.mem_toList.mp hnew))
  | carryOut place workspace task =>
    obtain ⟨i, hi⟩ := List.mem_iff_getElem?.mp hgarbled
    rw [on, List.getElem?_modify, Option.map_eq_map, Option.map_eq_some_iff] at hi
    obtain ⟨held, hheld, rfl⟩ := hi
    have hbelongs := h held (List.mem_of_getElem? hheld)
    split
    · exact hbelongs.of_continues (task.continues held workspace)
    · exact hbelongs

/-- A move continues the garbled circuit that it is about. -/
theorem Move.getElem?_on_carryOut (circuit : Circuit) (hplace : shelf[place]? = some before)
    (workspace : Workspace γ) (task : Task) :
    ((Move.carryOut place workspace task).on circuit shelf)[place]? =
      some (task.run.run ⟨before, workspace⟩).2.garbled := by
  rw [on, List.getElem?_modify, hplace, Option.map_eq_map, Option.map_some, if_pos rfl]

/-- It leaves all others as they are. -/
theorem Move.getElem?_on_of_ne (hplace : shelf[place]? = some before) {move : Move γ}
    (hmove : ∀ workspace task, move ≠ .carryOut place workspace task) :
    (move.on circuit shelf)[place]? = some before := by
  have hlength := (List.getElem?_eq_some_iff.mp hplace).1
  cases move with
  | blank | ofParts tables decoding | clone source =>
    exact (List.getElem?_append_left hlength).trans hplace
  | carryOut other workspace task =>
    have hother : other ≠ place := by
      rintro rfl
      exact hmove workspace task rfl
    rw [on, List.getElem?_modify, hplace, Option.map_eq_map, Option.map_some, if_neg hother]

/-- So what is garbled is garbled behind the move. -/
theorem Move.exists_isGarbled (hplace : shelf[place]? = some before)
    (hgarbled : before.isGarbled = true) (move : Move γ) :
    ∃ after, (move.on circuit shelf)[place]? = some after ∧ after.isGarbled = true := by
  by_cases hmove : ∃ workspace task, move = .carryOut place workspace task
  · obtain ⟨workspace, task, rfl⟩ := hmove
    exact ⟨_, getElem?_on_carryOut circuit hplace workspace task,
      (task.continues before workspace).isGarbled hgarbled⟩
  · refine ⟨before, getElem?_on_of_ne hplace ?_, hgarbled⟩
    exact fun workspace task heq => hmove ⟨workspace, task, heq⟩

/-- Whatever happens, all on the shelf belong to the circuit. -/
theorem forall_belongs_shelfBehind (h : ∀ garbled ∈ shelf, garbled.Belongs circuit)
    (moves : List (Move γ)) :
    ∀ garbled ∈ shelfBehind circuit shelf moves, garbled.Belongs circuit := by
  induction moves generalizing shelf with
  | nil => exact h
  | cons move moves ih => exact ih (move.forall_belongs h)

/-- Whatever happens, what is garbled stays garbled. -/
theorem exists_isGarbled_shelfBehind (hplace : shelf[place]? = some before)
    (hgarbled : before.isGarbled = true) (later : List (Move γ)) :
    ∃ after, (shelfBehind circuit shelf later)[place]? = some after ∧ after.isGarbled = true := by
  induction later generalizing shelf before with
  | nil => exact ⟨before, hplace, hgarbled⟩
  | cons move later ih =>
    obtain ⟨next, hnext, hstill⟩ := move.exists_isGarbled hplace hgarbled
    exact ih hnext hstill

end Shelves

/-- Parts make a garbled circuit exactly if there is a slot for every gate and the wires that can be
decoded are the outputs. Whatever happens on a shelf of garbled circuits made for one circuit, all of
them belong to it. The next move changes at most the one that it is about, and there a slot is
filled only if a garbling succeeds, which fills all of them and puts its decoding table in place. What
is garbled stays garbled, whatever happens later. -/
theorem shelfBehind_belongs {γ : Type} [Generator γ] (circuit : Circuit) :
    (∀ tables decoding, (∃ garbled, GarbledCircuit.ofParts circuit tables decoding = .ok garbled) ↔
      tables.size = circuit.gateCount ∧
        ∀ wire, wire ∈ circuit.outputs ↔ (decoding.get? wire).isSome = true) ∧
    ∀ moves : List (Move γ),
      (∀ garbled ∈ shelfBehind circuit [] moves, garbled.Belongs circuit) ∧
      ∀ place before, (shelfBehind circuit [] moves)[place]? = some before →
        (∀ workspace task, ∃ after,
          (shelfBehind circuit [] (moves ++ [.carryOut place workspace task]))[place]? = some after ∧
          before.Continues after (task.run.run ⟨before, workspace⟩).1) ∧
        (∀ move : Move γ, (∀ workspace task, move ≠ .carryOut place workspace task) →
          (shelfBehind circuit [] (moves ++ [move]))[place]? = some before) ∧
        (before.isGarbled = true → ∀ later, ∃ after,
          (shelfBehind circuit [] (moves ++ later))[place]? = some after ∧
          after.isGarbled = true) := by
  refine ⟨?_, ?_⟩
  · intro tables decoding
    rw [← DecodingTable.coversExactly_iff]
    constructor
    · rintro ⟨garbled, hparts⟩
      exact (ofParts_eq_ok_iff.mp hparts).1
    · exact fun hfit => ⟨_, ofParts_eq_ok_iff.mpr ⟨hfit, rfl⟩⟩
  · intro moves
    refine ⟨?_, ?_⟩
    · exact forall_belongs_shelfBehind (fun garbled h => absurd h List.not_mem_nil) moves
    · intro place before hplace
      refine ⟨?_, ?_, ?_⟩
      · intro workspace task
        rw [shelfBehind_append]
        exact ⟨_, Move.getElem?_on_carryOut circuit hplace workspace task,
          task.continues before workspace⟩
      · intro move hmove
        rw [shelfBehind_append]
        exact Move.getElem?_on_of_ne hplace hmove
      · intro hgarbled later
        rw [shelfBehind_append]
        exact exists_isGarbled_shelfBehind hplace hgarbled later

/-- A copy of what was garbled stays garbled after a table of it was emptied and no garbling from the
empty seed came about. -/
theorem shelfBehind_belongs_negatedSum :
    let fresh : Workspace StreamGenerator := ⟨.new .chacha20, .new .sha256⟩
    let garble : Task := .garble .hmacSha256 .negatedSum (List.replicate 32 7)
    ∃ copied : GarbledCircuit,
      (shelfBehind .negatedSum [] [.blank, .carryOut 0 fresh garble, .clone 0])[1]? = some copied ∧
      copied.Belongs .negatedSum ∧
      ∃ after : GarbledCircuit,
        (shelfBehind .negatedSum [] ([.blank, .carryOut 0 fresh garble, .clone 0] ++
          [.carryOut 1 fresh (.edit 0 fun _ => []),
            .carryOut 1 fresh (.garble .hmacSha256 .negatedSum [])]))[1]? = some after ∧
        after.isGarbled = true := by
  intro fresh garble
  have hadmits : (GarbledCircuit.blank .negatedSum).Admits .negatedSum :=
    ⟨rfl, rfl, rfl, Circuit.validate_negatedSum⟩
  have hkey : (Generator.key (List.replicate 32 7)).run fresh.generator = _ :=
    StreamGenerator.run_key_of_length List.length_replicate
  obtain ⟨garbled, values, hrun⟩ := hadmits.exists_run_garble_of_key .hmacSha256 hkey
  have hgarble : (garble.run.run ⟨.blank .negatedSum, fresh⟩).1 = .ok (.values values) := by
    rw [Task.run, run_map, run_garbleInPlace_of_ok hrun]
    rfl
  obtain ⟨_, hshelves⟩ := shelfBehind_belongs (γ := StreamGenerator) .negatedSum
  obtain ⟨_, hplaces⟩ := hshelves [.blank]
  obtain ⟨filled, hfilled, hcontinues⟩ := (hplaces 0 _ rfl).1 fresh garble
  have hisGarbled := (hcontinues.filled values hgarble).isGarbled
  obtain ⟨hbelongs, hplaces⟩ := hshelves [.blank, .carryOut 0 fresh garble, .clone 0]
  have hcopied : (shelfBehind .negatedSum []
      [.blank, .carryOut 0 fresh garble, .clone 0])[1]? = some filled := hfilled
  exact ⟨filled, hcopied, hbelongs filled (List.mem_of_getElem? hcopied),
    (hplaces 1 filled hcopied).2.2 hisGarbled _⟩

end SeededGarbling
