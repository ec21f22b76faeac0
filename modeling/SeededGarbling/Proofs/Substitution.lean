import SeededGarbling.Proofs.Declared
import SeededGarbling.Proofs.Evaluation
import SeededGarbling.Proofs.Preparation

/-!
# Substituted gates

Two circuits that are wired alike are garbled from one seed with the same labels and the same pads, so
their tables differ only through the functions of their gates. The values that a row was sealed for
show in it: where they are equal so are the rows, and where they are not, the pad cancels between the
two rows and leaves the difference of what is under it. The signal bit is part of this, so it takes no
assumption on labels to see the difference.
-/

namespace SeededGarbling

open Traversal

namespace TruthTable

/-- The four low bits are the values of the table. -/
theorem ofBits_eq_ofRows (table : TruthTable) :
    ofBits table.bits = ofRows (table.eval false false) (table.eval false true)
      (table.eval true false) (table.eval true true) := by
  have hall : ∀ n < 256, ofBits (.ofNat n) =
      ofRows (eval ⟨.ofNat n⟩ false false) (eval ⟨.ofNat n⟩ false true)
        (eval ⟨.ofNat n⟩ true false) (eval ⟨.ofNat n⟩ true true) := by
    decide +kernel
  have htable := hall table.bits.toNat table.bits.toNat_lt
  rw [UInt8.ofNat_toNat] at htable
  exact htable

/-- The other bits have no influence on them. -/
theorem eval_ofBits (table : TruthTable) (a b : Bool) :
    (ofBits table.bits).eval a b = table.eval a b := by
  rw [ofBits_eq_ofRows, eval_ofRows]
  cases a <;> cases b <;> rfl

/-- Tables have the same values exactly if their four low bits agree. -/
theorem ofBits_eq_ofBits_iff (table other : TruthTable) :
    ofBits table.bits = ofBits other.bits ↔ ∀ a b, table.eval a b = other.eval a b := by
  constructor
  · intro h a b
    rw [← eval_ofBits, h, eval_ofBits]
  · intro h
    rw [ofBits_eq_ofRows, ofBits_eq_ofRows, h, h, h, h]

end TruthTable

/-- The wires of a gate: the two that it reads and the one that it drives. -/
def Gate.wiring (gate : Gate) : Wire × Wire × Wire :=
  (gate.left, gate.right, gate.output)

/-- A signal is the signal of the value that it stands for. -/
theorem WireLabels.signal_value (labels : WireLabels) (signal : Bool) :
    labels.signal (signal ^^ labels.permute) = signal := by
  rw [WireLabels.signal, Bool.xor_assoc, Bool.xor_self, Bool.xor_false]

section Masks

variable {n : Nat}

/-- A mask on both of them cancels. -/
theorem xorVector_xorVector_xorVector (a b mask : Vector UInt8 n) :
    xorVector (xorVector a mask) (xorVector b mask) = xorVector a b := by
  ext i hi
  simp only [xorVector, Vector.getElem_zipWith]
  rw [UInt8.xor_comm b[i] mask[i], UInt8.xor_assoc, ← UInt8.xor_assoc mask[i], UInt8.xor_self,
    UInt8.zero_xor]

/-- Cutting commutes with masking. -/
theorem xorVector_take (a b : Vector UInt8 n) (count : Nat) :
    xorVector (a.take count) (b.take count) = (xorVector a b).take count := by
  ext i hi
  simp only [xorVector, Vector.getElem_zipWith, Vector.getElem_take]

/-- The rows under one mask are equal only if what it masks is. -/
theorem xorVector_left_inj {a b mask : Vector UInt8 n} :
    xorVector a mask = xorVector b mask ↔ a = b := by
  constructor
  · intro h
    have hunmasked := congrArg (xorVector · mask) h
    simp only [xorVector_xorVector_cancel] at hunmasked
    exact hunmasked
  · exact congrArg (xorVector · mask)

end Masks

/-- What two rows show of the two values that they were sealed for, on a wire with the given labels. -/
structure RowShows (labels : WireLabels) (value other : Bool) (row row' : Vector UInt8 17) : Prop where
  /-- They are equal exactly if the values are. -/
  eq_iff : row = row' ↔ value = other
  /-- Otherwise the last byte differs by one. -/
  signal : value ≠ other → row[16] ^^^ row'[16] = 1
  /-- The bytes before it differ by the two labels of the wire. -/
  label : value ≠ other →
    xorVector (row.take 16) (row'.take 16) = xorVector labels.zero labels.one

/-- Under one pad, two values show. -/
theorem rowShows_of_pad (labels : WireLabels) (value other : Bool) (pad : Vector UInt8 17) :
    RowShows labels value other
      (xorVector (plainRow (labels.label value) (labels.signal value)) pad)
      (xorVector (plainRow (labels.label other) (labels.signal other)) pad) where
  eq_iff := by
    rw [xorVector_left_inj]
    constructor
    · intro h
      have hlast := congrArg (fun row => row[16]) h
      simp only [getElem_plainRow] at hlast
      revert hlast
      unfold WireLabels.signal
      cases value <;> cases other <;> cases labels.permute <;> decide
    · rintro rfl
      rfl
  signal := by
    intro hne
    have hlast := congrArg (fun row => row[16]) (xorVector_xorVector_xorVector
      (plainRow (labels.label value) (labels.signal value))
      (plainRow (labels.label other) (labels.signal other)) pad)
    simp only [xorVector, Vector.getElem_zipWith, getElem_plainRow] at hlast ⊢
    rw [hlast]
    revert hne
    unfold WireLabels.signal
    cases value <;> cases other <;> cases labels.permute <;> decide
  label := by
    intro hne
    rw [xorVector_take, xorVector_xorVector_xorVector, ← xorVector_take, take_plainRow,
      take_plainRow]
    cases value <;> cases other
    case false.false | true.true => exact absurd rfl hne
    case false.true => rfl
    case true.false => exact xorVector_comm _ _

/-- What two sets of tables show of two gates that are wired alike and stand at one place. -/
structure GateShows (labels : Wire → WireLabels) (tables tables' : TableSet) (index : Nat)
    (gate gate' : Gate) : Prop where
  /-- The tables there are equal exactly if the truth tables agree in their four low bits. -/
  table : tables.get? index = tables'.get? index ↔
    TruthTable.ofBits gate.table.bits = TruthTable.ofBits gate'.table.bits
  /-- Each row shows the values of the truth tables at the operands that its signals stand for. -/
  rows : ∀ sa sb, ∃ row row', tables.row? index (rowIndex sa sb) = some row ∧
    tables'.row? index (rowIndex sa sb) = some row' ∧
    RowShows (labels gate.output)
      (gate.table.eval (sa ^^ (labels gate.left).permute) (sb ^^ (labels gate.right).permute))
      (gate'.table.eval (sa ^^ (labels gate.left).permute) (sb ^^ (labels gate.right).permute))
      row row'

namespace GateCipher

variable {cipher : GateCipher} {labels : Wire → WireLabels} {gate gate' : Gate} {index : Nat}
  {table table' : Bytes} {tables tables' : TableSet}

/-- Gates that are wired alike and have the same values have one table. -/
theorem garbleGate_congr (hwiring : gate.wiring = gate'.wiring)
    (heval : ∀ a b, gate.table.eval a b = gate'.table.eval a b) :
    cipher.garbleGate (gate, index) = cipher.garbleGate (gate', index) := by
  obtain ⟨left, right, output, function⟩ := gate
  cases hwiring
  have hseal : ∀ a b c, cipher.sealRow index function a b c =
      cipher.sealRow index gate'.table a b c := by
    intro a b c
    funext signals
    unfold sealRow
    simp only [heval]
  unfold garbleGate
  simp only [hseal]

/-- The row that two signals point to is found in the table, sealed for the values that the signals
stand for. -/
theorem exists_row (hlabels : ∀ wire, cipher.wireLabels wire = .ok (labels wire))
    (htable : tables.get? index = some table) (h : cipher.garbleGate (gate, index) = .ok table)
    (sa sb : Bool) :
    let va := sa ^^ (labels gate.left).permute
    let vb := sb ^^ (labels gate.right).permute
    let vc := gate.table.eval va vb
    ∃ pad, cipher.rowPad index (rowIndex sa sb) ((labels gate.left).label va)
        ((labels gate.right).label vb) = .ok pad ∧
      tables.row? index (rowIndex sa sb) =
        some (xorVector (plainRow ((labels gate.output).label vc) ((labels gate.output).signal vc))
          pad) := by
  intro va vb vc
  obtain ⟨pad, hpad, hrow⟩ := row_of_garbleGate hlabels h va vb
  rw [WireLabels.signal_value, WireLabels.signal_value] at hpad hrow
  exact ⟨pad, hpad, TableSet.row?_eq_some htable hrow⟩

/-- Under one pad, each row shows the values that it was sealed for. -/
theorem exists_rows (hwiring : gate.wiring = gate'.wiring)
    (hlabels : ∀ wire, cipher.wireLabels wire = .ok (labels wire))
    (htable : tables.get? index = some table) (h : cipher.garbleGate (gate, index) = .ok table)
    (htable' : tables'.get? index = some table')
    (h' : cipher.garbleGate (gate', index) = .ok table') (sa sb : Bool) :
    ∃ row row', tables.row? index (rowIndex sa sb) = some row ∧
      tables'.row? index (rowIndex sa sb) = some row' ∧
      RowShows (labels gate.output)
        (gate.table.eval (sa ^^ (labels gate.left).permute) (sb ^^ (labels gate.right).permute))
        (gate'.table.eval (sa ^^ (labels gate.left).permute) (sb ^^ (labels gate.right).permute))
        row row' := by
  obtain ⟨pad, hpad, hrow⟩ := exists_row hlabels htable h sa sb
  obtain ⟨pad', hpad', hrow'⟩ := exists_row hlabels htable' h' sa sb
  obtain ⟨left, right, output, function⟩ := gate
  cases hwiring
  rw [hpad, Except.ok.injEq] at hpad'
  subst hpad'
  exact ⟨_, _, hrow, hrow', rowShows_of_pad _ _ _ _⟩

/-- With all four rows, the table shows the function of the gate. -/
theorem gateShows (hwiring : gate.wiring = gate'.wiring)
    (hlabels : ∀ wire, cipher.wireLabels wire = .ok (labels wire))
    (htable : tables.get? index = some table) (h : cipher.garbleGate (gate, index) = .ok table)
    (htable' : tables'.get? index = some table')
    (h' : cipher.garbleGate (gate', index) = .ok table') :
    GateShows labels tables tables' index gate gate' := by
  have hrows := exists_rows hwiring hlabels htable h htable' h'
  refine ⟨?_, hrows⟩
  rw [TruthTable.ofBits_eq_ofBits_iff]
  constructor
  · intro heq va vb
    obtain ⟨row, row', hrow, hrow', hshows⟩ :=
      hrows ((labels gate.left).signal va) ((labels gate.right).signal vb)
    rw [WireLabels.signal_xor_permute, WireLabels.signal_xor_permute] at hshows
    rw [TableSet.row?, heq] at hrow
    rw [TableSet.row?, hrow, Option.some.injEq] at hrow'
    exact hshows.eq_iff.mp hrow'
  · intro heval
    rw [garbleGate_congr hwiring heval, h', Except.ok.injEq] at h
    rw [htable, htable', h]

end GateCipher

/-- Two gates stand at one place in two circuits. -/
structure Gate.Opposite (circuit other : Circuit) (index : Nat) (gate gate' : Gate) : Prop where
  /-- One of them stands in the one circuit, -/
  first : circuit.gates[index]? = some gate
  /-- and one in the other. -/
  second : other.gates[index]? = some gate'

/-- They are listed there with the number of the place. -/
theorem Gate.Opposite.mem {circuit other : Circuit} {index : Nat} {gate gate' : Gate}
    (h : Opposite circuit other index gate gate') :
    (gate, index) ∈ circuit.gates.zipIdx ∧ (gate', index) ∈ other.gates.zipIdx :=
  ⟨List.mem_zipIdx_iff_getElem?.mpr h.first, List.mem_zipIdx_iff_getElem?.mpr h.second⟩

/-- If the circuits are wired alike, so are the gates. -/
theorem Gate.Opposite.wiring_eq {circuit other : Circuit} {index : Nat} {gate gate' : Gate}
    (h : Opposite circuit other index gate gate')
    (hwiring : circuit.gates.map wiring = other.gates.map wiring) : gate.wiring = gate'.wiring := by
  have hmap := congrArg (·[index]?) hwiring
  simp only [List.getElem?_map, h.first, h.second, Option.map_some, Option.some.injEq] at hmap
  exact hmap

namespace Garbling.MadeBy

variable {result result' : Garbling} {cipher : GateCipher} {circuit other : Circuit}
  {hasher hasher' : Hasher}

/-- What one cipher makes of two circuits has the same tables if it has the same table for every gate. -/
theorem tables_eq_of_get? (h : result.MadeBy cipher circuit hasher)
    (h' : result'.MadeBy cipher other hasher')
    (hlength : circuit.gates.length = other.gates.length)
    (hget : ∀ index < circuit.gates.length,
      result.tables.get? index = result'.tables.get? index) : result.tables = result'.tables := by
  obtain ⟨tables, htables, hresult, _⟩ := h.tables
  obtain ⟨tables', htables', hresult', _⟩ := h'.tables
  have hcount := length_of_mapM htables
  have hcount' := length_of_mapM htables'
  rw [List.length_zipIdx] at hcount hcount'
  rw [hresult, hresult'] at hget ⊢
  simp only [TableSet.get?_ofTables] at hget
  congr 1
  apply List.ext_getElem?
  intro index
  by_cases hindex : index < circuit.gates.length
  · exact hget index hindex
  · rw [List.getElem?_eq_none (by omega), List.getElem?_eq_none (by omega)]

end Garbling.MadeBy

/-- Two circuits that are wired alike, garbled from one seed with generators that agree on it. Their
tables are the same exactly if the truth tables of all gates agree in the four low bits, and gate by
gate it is the same. More precisely, row by row: where the truth tables agree at the values that the
signals of the row stand for, the rows are the same; where they do not, the last byte differs by one and
the bytes before it differ by the two labels of the wire that the gate drives. -/
theorem substitution_shows {γ δ : Type} [Generator γ] [Generator δ] {algorithm : PrfAlgorithm}
    {circuit other : Circuit} {seed : Bytes} {workspace after : Workspace γ}
    {workspace' after' : Workspace δ} {result result' : Garbling}
    (hwiring : circuit.gates.map Gate.wiring = other.gates.map Gate.wiring)
    (hagree : Generator.Agree seed workspace.generator workspace'.generator)
    (h : (Garbling.garble algorithm circuit seed).run workspace = (.ok result, after))
    (h' : (Garbling.garble algorithm other seed).run workspace' = (.ok result', after')) :
    (result.tables = result'.tables ↔ ∀ index gate gate',
      Gate.Opposite circuit other index gate gate' →
        TruthTable.ofBits gate.table.bits = TruthTable.ofBits gate'.table.bits) ∧
    ∃ (cipher : GateCipher) (prepared : Workspace γ) (labels : Wire → WireLabels),
      (Garbling.cipherOfSeed algorithm seed).run workspace = (.ok cipher, prepared) ∧
      (∀ wire, cipher.wireLabels wire = .ok (labels wire)) ∧
      ∀ index gate gate', Gate.Opposite circuit other index gate gate' →
        GateShows labels result.tables result'.tables index gate gate' := by
  obtain ⟨cipher, prepared, hprepare, hmade, _⟩ := Garbling.madeBy_of_run_garble h
  obtain ⟨cipher', prepared', hprepare', hmade', _⟩ := Garbling.madeBy_of_run_garble h'
  have hcipher := (Garbling.run_prepare_eq_ok_iff.mp hprepare).2
  have hcipher' := (Garbling.run_prepare_eq_ok_iff.mp hprepare').2
  -- One key leads to one cipher, so labels and pads are the same in both runs.
  have hsame := Garbling.outcome_cipherOfSeed_of_agree algorithm hagree
  rw [hcipher, hcipher', Except.ok.injEq] at hsame
  subst hsame
  obtain ⟨labels, hlabels⟩ := (Garbling.sound_of_cipherOfSeed hcipher).1.exists_labels
  have hgates : ∀ index gate gate', Gate.Opposite circuit other index gate gate' →
      GateShows labels result.tables result'.tables index gate gate' := by
    intro index gate gate' hopposite
    obtain ⟨hfirst, hsecond⟩ := hopposite.mem
    obtain ⟨table, htable, hgarble⟩ := hmade.get?_tables hfirst
    obtain ⟨table', htable', hgarble'⟩ := hmade'.get?_tables hsecond
    exact GateCipher.gateShows (hopposite.wiring_eq hwiring) hlabels htable hgarble htable' hgarble'
  refine ⟨⟨?_, ?_⟩, cipher, prepared, labels, hcipher, hlabels, hgates⟩
  · intro heq index gate gate' hopposite
    exact (hgates index gate gate' hopposite).table.mp (congrArg (TableSet.get? · index) heq)
  · intro hbits
    have hlength := congrArg List.length hwiring
    rw [List.length_map, List.length_map] at hlength
    refine hmade.tables_eq_of_get? hmade' hlength fun index hindex => ?_
    have hopposite : Gate.Opposite circuit other index _ _ :=
      ⟨List.getElem?_eq_getElem hindex, List.getElem?_eq_getElem (hlength ▸ hindex)⟩
    exact (hgates index _ _ hopposite).table.mpr (hbits index _ _ hopposite)

/-- Of the first gate only bits without meaning were changed, and its table is the same. The second one
was changed at operands that are never met, since it reads one wire twice, and this shows. -/
theorem substitution_shows_negatedSum :
    let other : Circuit := ⟨[⟨0, 1, 2, .xor⟩, ⟨2, 2, 3, .nand⟩], [0, 1], [3]⟩
    ∃ seed result result' after after',
      (Garbling.garble .hmacSha256 .negatedSum seed).run
        (⟨.new .chacha20, .new .sha256⟩ : Workspace StreamGenerator) = (.ok result, after) ∧
      (Garbling.garble .hmacSha256 other seed).run
        (⟨.new .chacha20, .new .blake3⟩ : Workspace StreamGenerator) = (.ok result', after') ∧
      result.tables.get? 0 = result'.tables.get? 0 ∧ result.tables ≠ result'.tables := by
  intro other
  have hother : other.validate = .ok () := by
    simp [other, Circuit.validate, DefinedWires.declareInput, DefinedWires.declareGate, bind,
      Except.bind, pure, Except.pure]
  let seed : Bytes := List.replicate 32 7
  let fresh : Workspace StreamGenerator := ⟨.new .chacha20, .new .sha256⟩
  let fresh' : Workspace StreamGenerator := ⟨.new .chacha20, .new .blake3⟩
  have hseed : seed.length = fresh.generator.algorithm.seedLength := List.length_replicate
  have hseed' : seed.length = fresh'.generator.algorithm.seedLength := List.length_replicate
  obtain ⟨result, after, hgarble⟩ :=
    Garbling.exists_run_garble_stream .hmacSha256 Circuit.validate_negatedSum hseed
  obtain ⟨result', after', hgarble'⟩ :=
    Garbling.exists_run_garble_stream .hmacSha256 hother hseed'
  have hwiring : Circuit.negatedSum.gates.map Gate.wiring = other.gates.map Gate.wiring := rfl
  have hagree : Generator.Agree seed fresh.generator fresh'.generator :=
    StreamGenerator.agree_of_algorithm_eq rfl seed
  obtain ⟨htables, _, _, _, _, _, hgates⟩ := substitution_shows hwiring hagree hgarble hgarble'
  refine ⟨seed, result, result', after, after', hgarble, hgarble', ?_, ?_⟩
  · exact (hgates 0 _ _ ⟨rfl, rfl⟩).table.mpr rfl
  · intro heq
    exact absurd (htables.mp heq 1 _ _ ⟨rfl, rfl⟩) (by decide)

end SeededGarbling
