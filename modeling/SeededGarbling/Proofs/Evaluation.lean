import SeededGarbling.Keystream.Counting
import SeededGarbling.Proofs.Declared
import SeededGarbling.Proofs.Evaluator
import SeededGarbling.Proofs.Outcome

/-!
# Garbled evaluation computes the circuit

The invariant is that the evaluator holds, for exactly the wires that have a value, the token of
this value under the labels that the cipher derives for the wire. A gate keeps it: the signals of
its operands point to the row that was sealed for their values, the pad of that row cancels, and
what is left is the token of the gate's value.
-/

namespace SeededGarbling

open Traversal

/-- The signal byte is the signal bit, zero or one. -/
theorem WireLabels.toNat_signal_token (labels : WireLabels) (value : Bool) :
    (labels.token value).signal.toNat = (labels.signal value).toNat := by
  simp only [token]
  cases labels.signal value <;> rfl

/-- A row is reached behind as many bytes as the rows before it have. -/
theorem Bytes.take_drop_flatten {pieces : List Bytes} {width i : Nat} {piece : Bytes}
    (hwidth : ∀ p ∈ pieces, p.length = width) (hi : pieces[i]? = some piece) :
    (pieces.flatten.drop (i * width)).take width = piece := by
  induction pieces generalizing i with
  | nil => simp at hi
  | cons first pieces ih =>
    have hfirst : first.length = width := hwidth first (List.mem_cons_self ..)
    rw [List.flatten_cons]
    cases i with
    | zero =>
      rw [List.getElem?_cons_zero, Option.some.injEq] at hi
      rw [Nat.zero_mul, List.drop_zero, ← hfirst, List.take_left, hi]
    | succ i =>
      rw [List.getElem?_cons_succ] at hi
      rw [Nat.succ_mul, Nat.add_comm, ← List.drop_drop, ← hfirst, List.drop_left, hfirst]
      exact ih (fun p hp => hwidth p (List.mem_cons_of_mem first hp)) hi

/-- A row is found where its bytes stand in the table. -/
theorem TableSet.row?_eq_some {tables : TableSet} {gate row : Nat} {table : Bytes}
    {content : Vector UInt8 17} (htable : tables.get? gate = some table)
    (hrow : (table.drop (row * rowLength)).take rowLength = content.toList) :
    tables.row? gate row = some content := by
  have hlength : ((table.drop (row * rowLength)).take rowLength).length = 17 := by
    rw [hrow, Vector.length_toList]
  unfold row?
  rw [htable]
  simp only [Option.bind_eq_bind, Option.bind_some, dif_pos hlength]
  change some _ = _
  rw [Option.some.injEq, ← Vector.toList_inj, Bytes.toList_toVector, hrow]

/-- The first sixteen bytes of a row are its label. -/
theorem take_plainRow (label : Label) (signal : Bool) : (plainRow label signal).take 16 = label := by
  apply Vector.ext
  intro i hi
  have hi' : i < 16 := by omega
  rw [Vector.getElem_take, plainRow, Vector.getElem_push_lt hi']

/-- The last byte of a row is its signal. -/
theorem getElem_plainRow (label : Label) (signal : Bool) (hsignal : 16 < 17) :
    (plainRow label signal)[16] = signal.toUInt8 := by
  rw [plainRow, Vector.getElem_push_eq]

namespace GateCipher

variable {cipher : GateCipher} {labels : Wire → WireLabels} {gate : Gate} {index : Nat}
  {table : Bytes} {tables : TableSet} {plain : WireMap Bool} {held : WireMap Token}

/-- The row that two signals point to was sealed for the values that the signals stand for. -/
theorem row_of_garbleGate (hlabels : ∀ wire, cipher.wireLabels wire = .ok (labels wire))
    (h : cipher.garbleGate (gate, index) = .ok table) (va vb : Bool) :
    let sa := (labels gate.left).signal va
    let sb := (labels gate.right).signal vb
    let vc := gate.table.eval va vb
    ∃ pad, cipher.rowPad index (rowIndex sa sb) ((labels gate.left).label va)
        ((labels gate.right).label vb) = .ok pad ∧
      (table.drop (rowIndex sa sb * rowLength)).take rowLength =
        (xorVector (plainRow ((labels gate.output).label vc) ((labels gate.output).signal vc))
          pad).toList := by
  intro sa sb vc
  obtain ⟨a, b, c, rows, ha, hb, hc, hrows, rfl⟩ := garbleGate_eq_ok_iff.mp h
  rw [hlabels, Except.ok.injEq] at ha hb hc
  subst ha hb hc
  have hwidth : ∀ row ∈ rows, row.length = rowLength :=
    forall_mem_of_mapM hrows fun _ _ _ => length_of_sealRow
  have hpair : signalPairs[rowIndex sa sb]? = some (sa, sb) := by
    cases sa <;> cases sb <;> rfl
  obtain ⟨row, hrow, hseal⟩ := getElem?_of_mapM hrows hpair
  obtain ⟨pad, hpad, hcontent⟩ := sealRow_eq_ok_iff.mp hseal
  rw [WireLabels.signal_xor_permute, WireLabels.signal_xor_permute] at hpad hcontent
  refine ⟨pad, hpad, ?_⟩
  rw [Bytes.take_drop_flatten hwidth hrow, hcontent]

/-- The pad that sealed a row opens it. -/
theorem openRow_xorVector {row : Nat} {left right : Label} {pad : Vector UInt8 17}
    (hpad : cipher.rowPad index row left right = .ok pad) (content : Vector UInt8 17) :
    cipher.openRow index row left right (xorVector content pad) = .ok content := by
  unfold openRow
  rw [hpad]
  change Except.ok (xorVector (xorVector content pad) pad) = _
  rw [xorVector_xorVector_cancel]

/-- Opening a gate with the tokens of two values yields the token of the gate's value. -/
theorem openGate_eq_some (hlabels : ∀ wire, cipher.wireLabels wire = .ok (labels wire))
    (htable : tables.get? index = some table) (h : cipher.garbleGate (gate, index) = .ok table)
    {va vb : Bool} (ha : held[gate.left]? = some ((labels gate.left).token va))
    (hb : held[gate.right]? = some ((labels gate.right).token vb)) :
    cipher.openGate tables held (gate, index) =
      some (held.insert gate.output ((labels gate.output).token (gate.table.eval va vb))) := by
  obtain ⟨pad, hpad, hrow⟩ := row_of_garbleGate hlabels h va vb
  have hsealed := TableSet.row?_eq_some htable hrow
  have hopened := openRow_xorVector hpad (plainRow
    ((labels gate.output).label (gate.table.eval va vb))
    ((labels gate.output).signal (gate.table.eval va vb)))
  unfold rowIndex at hsealed hopened
  simp only [openGate, ha, hb, Option.bind_eq_bind, Option.bind_some,
    WireLabels.toNat_signal_token, hsealed]
  simp only [WireLabels.token, hopened, Except.toOption, Option.bind_some, take_plainRow,
    getElem_plainRow]
  rfl

end GateCipher

/-- Exactly the wires that have a value are held, each with the token of its value. -/
def Carries (labels : Wire → WireLabels) (plain : WireMap Bool) (held : WireMap Token) : Prop :=
  ∀ wire, held[wire]? = plain[wire]?.map (labels wire).token

namespace Carries

variable {cipher : GateCipher} {labels : Wire → WireLabels} {tables : TableSet}
  {plain : WireMap Bool} {held : WireMap Token}

/-- A value and its token are stored together. -/
theorem insert (h : Carries labels plain held) (wire : Wire) (value : Bool) :
    Carries labels (plain.insert wire value) (held.insert wire ((labels wire).token value)) := by
  intro other
  rw [Std.ExtTreeMap.getElem?_insert, Std.ExtTreeMap.getElem?_insert]
  by_cases hwire : wire = other
  · subst hwire
    simp
  · simp only [Std.LawfulEqCmp.compare_eq_iff_eq, hwire, ite_false]
    exact h other

/-- The inputs carry their values from the start. -/
theorem presentInputs {circuit : Circuit} {found : WireMap WireLabels}
    (hfound : ∀ wire ∈ circuit.inputs, found[wire]? = some (labels wire)) (values : Wire → Bool) :
    ∃ initial, presentInputs found circuit.inputs values = some initial ∧
      Carries labels (circuit.assign values) initial := by
  have hentries : (circuit.inputs.mapM fun wire => do
      let wireLabels ← found[wire]?
      return (wire, wireLabels.token (values wire))) =
        some (circuit.inputs.map fun wire => (wire, (labels wire).token (values wire))) :=
    mapM_eq_pure_map fun wire hwire => by
      rw [hfound wire hwire]
      rfl
  refine ⟨_, by unfold SeededGarbling.presentInputs; rw [hentries]; rfl, ?_⟩
  intro wire
  unfold Circuit.assign
  rw [getElem?_ofList_map, getElem?_ofList_map]
  by_cases hwire : wire ∈ circuit.inputs
  · simp [hwire]
  · simp [hwire]

/-- A gate whose operands have values is evaluated and opened, and the two results agree. -/
theorem step (h : Carries labels plain held)
    (hlabels : ∀ wire, cipher.wireLabels wire = .ok (labels wire)) {gate : Gate} {index : Nat}
    (htable : ∃ table, tables.get? index = some table ∧
      cipher.garbleGate (gate, index) = .ok table)
    (hleft : gate.left ∈ plain) (hright : gate.right ∈ plain) :
    ∃ value, gate.evaluate plain = some (plain.insert gate.output value) ∧
      cipher.openGate tables held (gate, index) =
        some (held.insert gate.output ((labels gate.output).token value)) := by
  obtain ⟨table, hget, hgarble⟩ := htable
  have hva := Std.ExtTreeMap.getElem?_eq_some_getElem hleft
  have hvb := Std.ExtTreeMap.getElem?_eq_some_getElem hright
  have ha := h gate.left
  have hb := h gate.right
  rw [hva, Option.map_some] at ha
  rw [hvb, Option.map_some] at hb
  refine ⟨gate.table.eval plain[gate.left] plain[gate.right], ?_,
    GateCipher.openGate_eq_some hlabels hget hgarble ha hb⟩
  simp only [Gate.evaluate, hva, hvb, Option.bind_eq_bind, Option.bind_some]
  rfl

/-- Gates that are declared one after the other are all evaluated and opened. The wires declared so
far are those that have a value, so no operand is ever missing. -/
theorem run (hlabels : ∀ wire, cipher.wireLabels wire = .ok (labels wire)) {gates : List Gate}
    {base : Nat} {defined after : DefinedWires}
    (htables : ∀ indexed ∈ gates.zipIdx base, ∃ table, tables.get? indexed.2 = some table ∧
      cipher.garbleGate indexed = .ok table)
    (hdeclared : (gates.zipIdx base).foldlM DefinedWires.declareGate defined = .ok after)
    (hdefined : ∀ wire, wire ∈ defined ↔ wire ∈ plain) (h : Carries labels plain held) :
    ∃ plain' held', gates.foldlM Gate.evaluate plain = some plain' ∧
      (gates.zipIdx base).foldlM (cipher.openGate tables) held = some held' ∧
      Carries labels plain' held' ∧ ∀ wire, wire ∈ after ↔ wire ∈ plain' := by
  induction gates generalizing base defined plain held with
  | nil =>
    cases hdeclared
    exact ⟨plain, held, rfl, rfl, h, hdefined⟩
  | cons gate gates ih =>
    rw [List.zipIdx_cons] at htables hdeclared ⊢
    rw [List.foldlM_cons] at hdeclared
    obtain ⟨next, hnext, hrest⟩ := bind_eq_ok_iff.mp hdeclared
    obtain ⟨hleft, hright, _, rfl⟩ := DefinedWires.declareGate_eq_ok_iff.mp hnext
    obtain ⟨value, hevaluate, hopen⟩ := h.step hlabels (htables _ (List.mem_cons_self ..))
      ((hdefined gate.left).mp hleft) ((hdefined gate.right).mp hright)
    have hdefined' : ∀ wire, wire ∈ Std.HashSet.insert defined gate.output ↔
        wire ∈ plain.insert gate.output value := by
      intro wire
      rw [Std.HashSet.mem_insert, Std.ExtTreeMap.mem_insert, hdefined, beq_iff_eq,
        Std.LawfulEqCmp.compare_eq_iff_eq]
    obtain ⟨plain', held', hplain, hheld, hcarries, hafter⟩ :=
      ih (fun indexed hindexed => htables indexed (List.mem_cons_of_mem _ hindexed)) hrest
        hdefined' (h.insert gate.output value)
    refine ⟨plain', held', ?_, ?_, hcarries, hafter⟩
    · rw [List.foldlM_cons, hevaluate]
      exact hplain
    · rw [List.foldlM_cons, hopen]
      exact hheld

end Carries

namespace Garbling

/-- Whatever a circuit was garbled with, and whatever values its inputs are given: the plain
evaluation and the garbled one both reach the end, over the same wires. Every wire then holds the
label and the signal byte that the cipher derives for its plain value, and the decoding table turns
the signals of the outputs into their plain values. -/
theorem evaluation_decodes {γ : Type} [Generator γ] {algorithm : PrfAlgorithm} {circuit : Circuit}
    {seed : Bytes} {workspace after : Workspace γ} {result : Garbling}
    (h : (garble algorithm circuit seed).run workspace = (.ok result, after))
    (values : Wire → Bool) :
    ∃ cipher keyed plain initial held,
      (cipherOfSeed algorithm seed).run workspace = (.ok cipher, keyed) ∧
      circuit.evaluate (circuit.assign values) = some plain ∧
      presentInputs result.inputLabels circuit.inputs values = some initial ∧
      cipher.openGates circuit result.tables initial = some held ∧
      (∀ wire, wire ∈ plain ↔
        wire ∈ circuit.inputs ∨ ∃ gate ∈ circuit.gates, gate.output = wire) ∧
      (∀ wire, ∃ labels, cipher.wireLabels wire = .ok labels ∧
        held[wire]? = plain[wire]?.map labels.token) ∧
      ∀ wire ∈ circuit.outputs, ∃ value token, plain[wire]? = some value ∧
        held[wire]? = some token ∧ (token.signal = 0 ∨ token.signal = 1) ∧
        result.decoding.decode wire (token.signal == 1) = some value := by
  obtain ⟨cipher, prepared, hprepare, hmade, _⟩ := madeBy_of_run_garble h
  obtain ⟨hvalid, hcipher⟩ := run_prepare_eq_ok_iff.mp hprepare
  obtain ⟨labels, hlabels⟩ := (sound_of_cipherOfSeed hcipher).1.exists_labels
  obtain ⟨inputs, all, hinputs, hall, houtputs⟩ := Circuit.declared_of_validate hvalid
  obtain ⟨initial, hinitial, hcarries⟩ := Carries.presentInputs
    (fun wire hwire => hmade.getElem?_inputLabels hlabels hwire) values
  have hdefined : ∀ wire, wire ∈ inputs ↔ wire ∈ circuit.assign values := by
    intro wire
    rw [hinputs, ← Std.ExtTreeMap.isSome_getElem?_iff_mem, Circuit.assign, getElem?_ofList_map]
    by_cases hwire : wire ∈ circuit.inputs
    · simp [hwire]
    · simp [hwire]
  obtain ⟨plain, held, hplain, hheld, hend, hafter⟩ := hcarries.run hlabels
    (fun indexed hindexed => hmade.get?_tables hindexed) hall hdefined
  refine ⟨cipher, prepared, plain, initial, held, hcipher, hplain, hinitial, hheld, ?_, ?_, ?_⟩
  · intro wire
    rw [← hafter, DefinedWires.mem_of_declareGates hall, hinputs]
  · intro wire
    exact ⟨labels wire, hlabels wire, hend wire⟩
  · intro wire hwire
    have hvalue := Std.ExtTreeMap.getElem?_eq_some_getElem ((hafter wire).mp (houtputs wire hwire))
    have htoken := hend wire
    rw [hvalue, Option.map_some] at htoken
    refine ⟨_, _, hvalue, htoken, ?_, ?_⟩
    · simp only [WireLabels.token]
      cases (labels wire).signal _
      · exact Or.inl rfl
      · exact Or.inr rfl
    · have hsignal : ∀ bit : Bool, (bit.toUInt8 == 1) = bit := by decide
      rw [DecodingTable.decode, hmade.get?_decoding hlabels, if_pos hwire, Option.map_some,
        WireLabels.token, hsignal, WireLabels.signal_xor_permute]

/-- Garbled from a seed of one byte, the negated sum of two set bits is decoded as set. -/
theorem evaluation_decodes_negatedSum : ∃ result after initial cipher held token,
    (garble .hmacSha256 .negatedSum [5]).run
      (⟨{ seedLength := 1 }, .new .sha256⟩ : Workspace CountingGenerator) = (.ok result, after) ∧
    presentInputs result.inputLabels [0, 1] (fun _ => true) = some initial ∧
    GateCipher.openGates cipher .negatedSum result.tables initial = some held ∧
    held[(3 : Wire)]? = some token ∧
    result.decoding.decode 3 (token.signal == 1) = some true := by
  have hprepare : (prepare .hmacSha256 .negatedSum [5]).run
      (⟨{ seedLength := 1 }, .new .sha256⟩ : Workspace CountingGenerator) = (.ok _, _) :=
    run_prepare_eq_ok_iff.mpr ⟨Circuit.validate_negatedSum, rfl⟩
  obtain ⟨result, _, hrun⟩ := run_garble_of_prepared hprepare
  obtain ⟨cipher, _, plain, initial, held, _, hplain, hinitial, hheld, _, _, houtputs⟩ :=
    evaluation_decodes hrun fun _ => true
  obtain ⟨value, token, hvalue, htoken, _, hdecode⟩ := houtputs 3 (by decide)
  have hset : (Circuit.negatedSum.evaluate (Circuit.negatedSum.assign fun _ => true)).bind
      (·[(3 : Wire)]?) = some true := by decide
  rw [hplain, Option.bind_some, hvalue, Option.some.injEq] at hset
  rw [hset] at hdecode
  exact ⟨result, _, initial, cipher, held, token, hrun, hinitial, hheld, htoken, hdecode⟩

end Garbling

end SeededGarbling
