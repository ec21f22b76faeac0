import SeededGarbling.Proofs.HonestExchange

/-!
# What a commitment binds

A digest covers the tables put together, and no length is kept between them. An audit asks that every
slot holds a table but not how long it is, so what a commitment binds is the bytes of all tables, and
these can be moved from one table to its neighbour unseen. Where the tables are as long as garbled
ones there is only one way to cut the bytes, and then every single table is bound.
-/

namespace SeededGarbling

/-- Pieces of one width are told apart by what they give together, if they are equally many. -/
theorem Bytes.eq_of_flatten_eq {width : Nat} {first second : List Bytes}
    (hfirst : ∀ piece ∈ first, piece.length = width)
    (hsecond : ∀ piece ∈ second, piece.length = width) (hlength : first.length = second.length)
    (hflatten : first.flatten = second.flatten) : first = second := by
  rw [← blocks_flatten hfirst, ← blocks_flatten hsecond, hlength, hflatten]

namespace TableSet

variable {tables others : TableSet}

/-- Without an empty slot, the tables that are there are all there is. -/
theorem ofTables_present (h : ∀ slot ∈ tables.slots, slot.isSome = true) :
    ofTables tables.present = tables := by
  obtain ⟨slots⟩ := tables
  simp only [ofTables, present, mk.injEq]
  induction slots with
  | nil => rfl
  | cons slot slots ih =>
    rw [List.forall_mem_cons] at h
    obtain ⟨table, rfl⟩ := Option.isSome_iff_exists.mp h.1
    simpa using ih h.2

/-- Then there are as many of them as there are slots. -/
theorem length_present (h : ∀ slot ∈ tables.slots, slot.isSome = true) :
    tables.present.length = tables.size := by
  rw [← size_ofTables, ofTables_present h]

/-- Every table that is there has the length of a garbled one. -/
def Uniform (tables : TableSet) : Prop :=
  ∀ table ∈ tables.present, table.length = tableLength

/-- Between tables of that length the seams are known, so the bytes of all of them determine each. -/
theorem Uniform.eq_of_flatten_eq (h : tables.Uniform) (h' : others.Uniform)
    (hcomplete : ∀ slot ∈ tables.slots, slot.isSome = true)
    (hcomplete' : ∀ slot ∈ others.slots, slot.isSome = true) (hsize : tables.size = others.size)
    (hflatten : tables.present.flatten = others.present.flatten) : tables = others := by
  have hlength : tables.present.length = others.present.length := by
    rw [length_present hcomplete, length_present hcomplete', hsize]
  have hpresent : tables.present = others.present :=
    Bytes.eq_of_flatten_eq h h' hlength hflatten
  rw [← ofTables_present hcomplete, ← ofTables_present hcomplete', hpresent]

/-- The same bytes, all of them in the first table. -/
def merged (tables : TableSet) : TableSet :=
  ofTables (tables.present.flatten :: List.replicate (tables.size - 1) [])

/-- Merging keeps the bytes. -/
theorem flatten_present_merged (tables : TableSet) :
    tables.merged.present.flatten = tables.present.flatten := by
  simp [merged]

/-- It also keeps the number of slots. -/
theorem size_merged (h : 0 < tables.size) : tables.merged.size = tables.size := by
  rw [merged, size_ofTables, List.length_cons, List.length_replicate]
  omega

/-- No slot is left empty. -/
theorem isSome_of_mem_merged {slot : Option Bytes} (h : slot ∈ tables.merged.slots) :
    slot.isSome = true := by
  obtain ⟨table, _, rfl⟩ := List.mem_map.mp h
  rfl

/-- Where there are several tables, merging them changes the second. -/
theorem get?_merged_ne (h : tables.Uniform)
    (hcomplete : ∀ slot ∈ tables.slots, slot.isSome = true) (hsize : 2 ≤ tables.size) :
    tables.merged.get? 1 ≠ tables.get? 1 := by
  have hsecond : 1 < tables.present.length := by
    rw [length_present hcomplete]
    omega
  have hmerged : tables.merged.get? 1 = some [] := by
    have hrest : 0 < tables.size - 1 := by omega
    rw [merged, get?_ofTables, List.getElem?_cons_succ]
    simp [hrest]
  intro hget
  rw [hmerged, ← ofTables_present hcomplete, get?_ofTables, List.getElem?_eq_getElem hsecond,
    Option.some.injEq] at hget
  have hwidth := h _ (List.getElem_mem hsecond)
  rw [← hget] at hwidth
  simp [tableLength, rowLength] at hwidth

end TableSet

/-- A garbled circuit looks like one for the given circuit, whatever is in its tables. -/
structure GarbledCircuit.Shaped (garbled : GarbledCircuit) (circuit : Circuit) : Prop where
  /-- There is a slot for every gate. -/
  size : garbled.tables.size = circuit.gateCount
  /-- The input wires are those of the circuit. -/
  inputs : garbled.inputs = circuit.inputs
  /-- So are the output wires. -/
  outputs : garbled.outputs = circuit.outputs
  /-- No slot is empty. -/
  complete : ∀ slot ∈ garbled.tables.slots, slot.isSome = true
  /-- Exactly the output wires can be decoded. -/
  decoding : ∀ wire, wire ∈ circuit.outputs ↔ (garbled.decoding.get? wire).isSome = true

/-- The garbled circuit with its tables merged. -/
def GarbledCircuit.merged (garbled : GarbledCircuit) : GarbledCircuit :=
  { garbled with tables := garbled.tables.merged }

/-- Merging does not change the looks. -/
theorem GarbledCircuit.Shaped.merged {garbled : GarbledCircuit} {circuit : Circuit}
    (h : garbled.Shaped circuit) (hgates : 0 < circuit.gateCount) :
    garbled.merged.Shaped circuit := by
  refine ⟨?_, h.inputs, h.outputs, fun _ => TableSet.isSome_of_mem_merged, h.decoding⟩
  rw [← h.size] at hgates
  rw [GarbledCircuit.merged, TableSet.size_merged hgates, h.size]

/-- The opening with another garbled circuit handed over for an instance. -/
def Opening.replace (opening : Opening) (index : Nat) (garbled : GarbledCircuit) : Opening :=
  { opening with evaluated := opening.evaluated.insert index garbled }

/-- Only that instance is affected. -/
theorem Opening.getElem?_evaluated_replace (opening : Opening) (index other : Nat)
    (garbled : GarbledCircuit) :
    (opening.replace index garbled).evaluated[other]? =
      if index = other then some garbled else opening.evaluated[other]? := by
  rw [replace, Std.ExtTreeMap.getElem?_insert]
  simp only [Std.LawfulEqCmp.compare_eq_iff_eq]

/-- An opening fits as before, if the instance was handed over before. -/
theorem Opening.Fits.replace {opening : Opening} {checks : List Nat} {count index : Nat}
    (h : opening.Fits checks count) (hindex : index ∈ opening.evaluated)
    (garbled : GarbledCircuit) : (opening.replace index garbled).Fits checks count := by
  refine ⟨h.checkList, h.seeds, ?_⟩
  intro other
  rw [← h.evaluated other]
  by_cases hother : index = other
  · subst hother
    simp [Opening.replace, hindex]
  · simp [Opening.replace, hother]

namespace Verifier

variable {verifier : Verifier} {commitments : List Bytes} {checks : List Nat} {opening : Opening}
  {index : Nat} {garbled held : GarbledCircuit}

/-- What passes has the shape of the circuit and tables with the committed digest. -/
theorem tablesPass_iff :
    verifier.TablesPass commitments index garbled ↔ garbled.Shaped verifier.circuit ∧
      commitments[index]? = some (verifier.config.hash.digest garbled.tables.present.flatten) := by
  constructor
  · rintro ⟨hsize, hinputs, houtputs, hcomplete, hdecoding, hdigest⟩
    exact ⟨⟨hsize, hinputs, houtputs, hcomplete, hdecoding⟩, hdigest⟩
  · rintro ⟨⟨hsize, hinputs, houtputs, hcomplete, hdecoding⟩, hdigest⟩
    exact ⟨hsize, hinputs, houtputs, hcomplete, hdecoding, hdigest⟩

/-- A garbled circuit presented in the place of one that passes: it passes exactly when it has the
shape of the circuit and the bytes of the one held, unless two byte strings have one digest. -/
theorem TablesPass.iff_of_digest_ne (h : verifier.TablesPass commitments index held)
    (hdigest : garbled.tables.present.flatten ≠ held.tables.present.flatten →
      verifier.config.hash.digest garbled.tables.present.flatten ≠
        verifier.config.hash.digest held.tables.present.flatten) :
    verifier.TablesPass commitments index garbled ↔ garbled.Shaped verifier.circuit ∧
      garbled.tables.present.flatten = held.tables.present.flatten := by
  rw [tablesPass_iff, h.digest, Option.some.injEq]
  constructor
  · rintro ⟨hshape, heq⟩
    refine ⟨hshape, ?_⟩
    by_contra hne
    exact hdigest hne heq.symm
  · rintro ⟨hshape, hbytes⟩
    rw [hbytes]
    exact ⟨hshape, rfl⟩

/-- In an opening that is accepted otherwise, what is presented for an instance decides alone. -/
theorem Accepts.audit_replace (h : verifier.Accepts commitments checks opening)
    (hheld : opening.evaluated[index]? = some held) (garbled : GarbledCircuit) :
    (verifier.TablesPass commitments index garbled →
      verifier.audit commitments checks (opening.replace index garbled) =
        .ok (opening.replace index garbled).evaluated) ∧
    (¬verifier.TablesPass commitments index garbled →
      verifier.audit commitments checks (opening.replace index garbled) =
        .error (.cheatAttempt index)) := by
  have hfits := h.fits.replace (InstanceMap.mem_of_getElem? hheld) garbled
  have hother : ∀ other ≠ index, ∀ handed,
      (opening.replace index garbled).evaluated[other]? = some handed →
        verifier.TablesPass commitments other handed := by
    intro other hne handed hhanded
    rw [Opening.getElem?_evaluated_replace, if_neg (Ne.symm hne)] at hhanded
    exact h.evaluated other handed hhanded
  have hpresented : (opening.replace index garbled).evaluated[index]? = some garbled := by
    rw [Opening.getElem?_evaluated_replace, if_pos rfl]
  -- The seeds are as they were and all other instances pass, so nothing else can be at fault.
  constructor
  · intro hpass
    rw [audit_eq_ok_iff]
    refine ⟨⟨hfits, h.seeds, ?_⟩, rfl⟩
    intro other handed hhanded
    by_cases hindex : other = index
    · subst hindex
      rw [hpresented, Option.some.injEq] at hhanded
      rw [← hhanded]
      exact hpass
    · exact hother other hindex handed hhanded
  · intro hfails
    rw [audit_eq_error_iff]
    exact .evaluated hfits h.seeds hpresented hfails
      fun earlier hearlier => hother earlier (Nat.ne_of_lt hearlier)

end Verifier

namespace Garbler

variable {ρ : Type} [RandomSource ρ]

/-- Before anybody tampers with it, an opening is accepted, and the tables handed over in it are as
long as garbling makes them. -/
theorem exists_accepted_opening (garbler : Garbler) (verifier : Verifier)
    (hconfig : verifier.config = garbler.config) (hcircuit : verifier.circuit = garbler.circuit)
    (hvalid : garbler.circuit.validate = .ok ()) (count : Nat) (source : ρ) :
    ∃ committed after, (garbler.commit count).run source = (.ok committed, after) ∧
      ∀ checks : List Nat, checks.Nodup → (∀ index ∈ checks, index < count) →
        ∃ opening, committed.openInstances checks = .ok opening ∧
          verifier.Accepts committed.commitments checks opening ∧
          ∀ index < count, index ∉ checks → ∃ held, opening.evaluated[index]? = some held ∧
            held.tables.Uniform := by
  obtain ⟨instances, after, hrun, hlength, hall⟩ := exists_run_commit garbler hvalid count source
  rw [← hconfig, ← hcircuit] at hall
  refine ⟨_, after, hrun, ?_⟩
  intro checks hnodup hbound
  have hchecks : ChecksFit checks instances.length := by
    rw [hlength]
    exact ⟨hnodup, hbound⟩
  have hanswer : ∃ opening,
      ({ garbler with instances := instances } : Garbler).openInstances checks = .ok opening ∧
        opening.Reveals instances checks := exists_openInstances hchecks
  obtain ⟨opening, hopen, hreveals⟩ := hanswer
  refine ⟨opening, hopen, accepts_of_honest hall hchecks hreveals, ?_⟩
  intro index hindex hunchecked
  rw [← hlength] at hindex
  have hmember := List.getElem?_eq_getElem hindex
  refine ⟨instances[index].garbled, ?_, (hall _ (List.getElem_mem hindex)).widths⟩
  rw [hreveals.evaluated, if_pos hunchecked, hmember, Option.map_some]

/-- In any circuit with several gates the tables of an instance handed over can be merged: the second
of them is changed, and the audit accepts. -/
theorem audit_merged (garbler : Garbler) (verifier : Verifier)
    (hconfig : verifier.config = garbler.config) (hcircuit : verifier.circuit = garbler.circuit)
    (hvalid : garbler.circuit.validate = .ok ()) (hgates : 2 ≤ garbler.circuit.gateCount)
    (count : Nat) (source : ρ) :
    ∃ committed after, (garbler.commit count).run source = (.ok committed, after) ∧
      ∀ checks : List Nat, checks.Nodup → (∀ index ∈ checks, index < count) →
        ∃ opening, committed.openInstances checks = .ok opening ∧
          ∀ index < count, index ∉ checks → ∃ held, opening.evaluated[index]? = some held ∧
            held.merged.tables.present.flatten = held.tables.present.flatten ∧
            held.merged.tables.get? 1 ≠ held.tables.get? 1 ∧
            verifier.audit committed.commitments checks (opening.replace index held.merged) =
              .ok (opening.replace index held.merged).evaluated := by
  obtain ⟨committed, after, hrun, hopenings⟩ :=
    exists_accepted_opening garbler verifier hconfig hcircuit hvalid count source
  refine ⟨committed, after, hrun, ?_⟩
  intro checks hnodup hbound
  obtain ⟨opening, hopen, haccepts, hhands⟩ := hopenings checks hnodup hbound
  refine ⟨opening, hopen, ?_⟩
  intro index hindex hunchecked
  obtain ⟨held, hheld, huniform⟩ := hhands index hindex hunchecked
  have hpass := haccepts.evaluated index held hheld
  obtain ⟨hshaped, _⟩ := Verifier.tablesPass_iff.mp hpass
  have hbytes : held.merged.tables.present.flatten = held.tables.present.flatten :=
    held.tables.flatten_present_merged
  have hsize : 2 ≤ held.tables.size := by
    rw [hshaped.size, hcircuit]
    exact hgates
  refine ⟨held, hheld, hbytes,
    TableSet.get?_merged_ne huniform hshaped.complete hsize, ?_⟩
  apply (haccepts.audit_replace hheld _).1
  rw [hpass.iff_of_digest_ne fun hne => absurd hbytes hne]
  refine ⟨hshaped.merged ?_, hbytes⟩
  rw [hcircuit]
  omega

/-- A circuit of two gates is enough: of the only instance both tables are changed, and the bytes that
were committed to are still there. -/
theorem audit_merged_negatedSum : ∃ committed after opening held,
    ((⟨{}, .negatedSum, []⟩ : Garbler).commit 1).run (⟨#[7], 0⟩ : CyclicSource) =
      (.ok committed, after) ∧
    committed.openInstances [] = .ok opening ∧ opening.evaluated[0]? = some held ∧
    held.merged.tables.present.flatten = held.tables.present.flatten ∧
    held.merged.tables.get? 1 ≠ held.tables.get? 1 ∧
    Verifier.audit ⟨{}, .negatedSum⟩ committed.commitments [] (opening.replace 0 held.merged) =
      .ok (opening.replace 0 held.merged).evaluated := by
  obtain ⟨committed, after, hrun, hopenings⟩ := audit_merged ⟨{}, .negatedSum, []⟩
    ⟨{}, .negatedSum⟩ rfl rfl Circuit.validate_negatedSum (by decide) 1 (⟨#[7], 0⟩ : CyclicSource)
  obtain ⟨opening, hopen, hhands⟩ := hopenings [] (by decide) (by decide)
  obtain ⟨held, hheld, hbytes, hchanged, haccepted⟩ := hhands 0 (by decide) (by decide)
  exact ⟨committed, after, opening, held, hrun, hopen, hheld, hbytes, hchanged, haccepted⟩

/-- Whatever the algorithms, the valid circuit, the number of instances, the source of randomness and
the check list, and whatever is presented for an instance that is handed over: unless two byte
strings have one digest, the audit accepts exactly what has the shape of the circuit and the bytes
that were committed to, and names the instance otherwise. Among tables of the length of garbled ones,
only those that were committed to are accepted. -/
theorem audit_binds_bytes (garbler : Garbler) (verifier : Verifier)
    (hconfig : verifier.config = garbler.config) (hcircuit : verifier.circuit = garbler.circuit)
    (hvalid : garbler.circuit.validate = .ok ()) (count : Nat) (source : ρ) :
    ∃ committed after, (garbler.commit count).run source = (.ok committed, after) ∧
      ∀ checks : List Nat, checks.Nodup → (∀ index ∈ checks, index < count) →
        ∃ opening, committed.openInstances checks = .ok opening ∧
          ∀ index < count, index ∉ checks → ∃ held, opening.evaluated[index]? = some held ∧
            held.Shaped garbler.circuit ∧ held.tables.Uniform ∧
            committed.commitments[index]? =
              some (garbler.config.hash.digest held.tables.present.flatten) ∧
            ∀ presented : GarbledCircuit,
              (presented.tables.present.flatten ≠ held.tables.present.flatten →
                garbler.config.hash.digest presented.tables.present.flatten ≠
                  garbler.config.hash.digest held.tables.present.flatten) →
              (presented.Shaped garbler.circuit ∧
                  presented.tables.present.flatten = held.tables.present.flatten →
                verifier.audit committed.commitments checks (opening.replace index presented) =
                  .ok (opening.replace index presented).evaluated) ∧
              (¬(presented.Shaped garbler.circuit ∧
                  presented.tables.present.flatten = held.tables.present.flatten) →
                verifier.audit committed.commitments checks (opening.replace index presented) =
                  .error (.cheatAttempt index)) ∧
              (presented.tables.Uniform → presented.tables ≠ held.tables →
                verifier.audit committed.commitments checks (opening.replace index presented) =
                  .error (.cheatAttempt index)) := by
  obtain ⟨committed, after, hrun, hopenings⟩ :=
    exists_accepted_opening garbler verifier hconfig hcircuit hvalid count source
  rw [← hconfig, ← hcircuit]
  refine ⟨committed, after, hrun, ?_⟩
  intro checks hnodup hbound
  obtain ⟨opening, hopen, haccepts, hhands⟩ := hopenings checks hnodup hbound
  refine ⟨opening, hopen, ?_⟩
  intro index hindex hunchecked
  obtain ⟨held, hheld, huniform⟩ := hhands index hindex hunchecked
  have hpass := haccepts.evaluated index held hheld
  obtain ⟨hheldShaped, hcommitted⟩ := Verifier.tablesPass_iff.mp hpass
  refine ⟨held, hheld, hheldShaped, huniform, hcommitted, ?_⟩
  intro presented hdigest
  obtain ⟨haccepted, hrefused⟩ := haccepts.audit_replace hheld presented
  rw [hpass.iff_of_digest_ne hdigest] at haccepted hrefused
  refine ⟨haccepted, hrefused, ?_⟩
  intro hpresented hne
  apply hrefused
  rintro ⟨hshaped, hbytes⟩
  have hsize : presented.tables.size = held.tables.size := by
    rw [hshaped.size, hheldShaped.size]
  exact hne (hpresented.eq_of_flatten_eq huniform hshaped.complete hheldShaped.complete hsize hbytes)

/-- Of three instances the one in the middle is handed over: with its tables merged it is accepted,
with other inputs it is refused. -/
theorem audit_binds_bytes_negatedSum : ∃ committed after opening held,
    ((⟨{}, .negatedSum, []⟩ : Garbler).commit 3).run (⟨#[7], 0⟩ : CyclicSource) =
      (.ok committed, after) ∧
    committed.openInstances [2, 0] = .ok opening ∧ opening.evaluated[1]? = some held ∧
    Verifier.audit ⟨{}, .negatedSum⟩ committed.commitments [2, 0] (opening.replace 1 held.merged) =
      .ok (opening.replace 1 held.merged).evaluated ∧
    Verifier.audit ⟨{}, .negatedSum⟩ committed.commitments [2, 0]
      (opening.replace 1 { held with inputs := [] }) = .error (.cheatAttempt 1) := by
  obtain ⟨committed, after, hrun, hopenings⟩ := audit_binds_bytes ⟨{}, .negatedSum, []⟩
    ⟨{}, .negatedSum⟩ rfl rfl Circuit.validate_negatedSum 3 (⟨#[7], 0⟩ : CyclicSource)
  obtain ⟨opening, hopen, hhands⟩ := hopenings [2, 0] (by decide) (by decide)
  obtain ⟨held, hheld, hshaped, _, _, hpresented⟩ := hhands 1 (by decide) (by decide)
  refine ⟨committed, after, opening, held, hrun, hopen, hheld, ?_, ?_⟩
  · have hbytes : held.merged.tables.present.flatten = held.tables.present.flatten :=
      held.tables.flatten_present_merged
    apply (hpresented held.merged fun hne => absurd hbytes hne).1
    exact ⟨hshaped.merged (by decide), hbytes⟩
  · apply (hpresented { held with inputs := [] } fun hne => absurd rfl hne).2.1
    rintro ⟨hshaped, _⟩
    have hinputs := hshaped.inputs
    cases hinputs

end Garbler

end SeededGarbling
