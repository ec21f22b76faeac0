import SeededGarbling.Garbling.Seeded
import SeededGarbling.Proofs.Run
import SeededGarbling.Proofs.Traversal

/-!
# Ciphers never refuse

Both algorithms answer the two output lengths that garbling asks for. Hence once a seed was turned
into a cipher, every label, every pad and every table can be derived, whatever the circuit.
-/

namespace SeededGarbling

open Traversal

/-- Every input is answered with the given number of bytes. -/
def Answers (f : KeyedFunction) (n : Nat) : Prop :=
  ∀ input, ∃ output, f input n = .ok output

/-- A key of the right length is never refused. -/
theorem PrfAlgorithm.exists_keyed (algorithm : PrfAlgorithm) {key : Bytes}
    (h : key.length = algorithm.keyLength) : ∃ f, algorithm.keyed key = .ok f := by
  unfold keyed
  rw [if_pos h]
  cases algorithm with
  | blake3 => exact ⟨_, rfl⟩
  | hmacSha256 => exact ⟨_, rfl⟩

/-- Whatever the key, up to 255 blocks of output are given. -/
theorem PrfAlgorithm.answers_of_keyed {algorithm : PrfAlgorithm} {key : Bytes} {f : KeyedFunction}
    (h : algorithm.keyed key = .ok f) {n : Nat} (hn : n ≤ Hkdf.maximumLength) : Answers f n := by
  unfold keyed at h
  split at h
  · intro input
    cases algorithm with
    | blake3 =>
      cases h
      exact ⟨_, rfl⟩
    | hmacSha256 =>
      cases h
      exact ⟨_, if_neg (Nat.not_lt.mpr hn)⟩
  · cases h

/-- A round succeeds where the round function answers the width of a half. -/
theorem Halves.permuteRound_eq_ok {f : KeyedFunction} {n : Nat} {block : Halves n} {number : UInt8}
    {mask : Vector UInt8 n} (h : f (block.right.toList ++ [number]) n = .ok mask) :
    (permuteRound (m := Id) f block number).run =
      .ok ⟨block.right, xorVector block.left mask⟩ := by
  change ExceptT.bindCont (m := Id) _ (f (block.right.toList ++ [number]) n) = _
  rw [h]
  rfl

/-- So do any number of rounds, one after the other. -/
theorem Halves.exists_permute {f : KeyedFunction} {n : Nat} (h : Answers f n) (block : Halves n) :
    ∃ permuted, (permute (m := Id) f block).run = .ok permuted := by
  suffices hrounds : ∀ numbers : List UInt8,
      ∃ permuted, (numbers.foldlM (permuteRound (m := Id) f) block).run = .ok permuted from
    hrounds roundNumbers
  intro numbers
  induction numbers generalizing block with
  | nil => exact ⟨block, rfl⟩
  | cons number numbers ih =>
    obtain ⟨mask, hmask⟩ := h (block.right.toList ++ [number])
    obtain ⟨permuted, hpermuted⟩ := ih ⟨block.right, xorVector block.left mask⟩
    refine ⟨permuted, ?_⟩
    change ExceptT.bindCont (m := Id) _ (permuteRound (m := Id) f block number).run = _
    rw [permuteRound_eq_ok hmask]
    exact hpermuted

/-- Hence the checked call behind a pad never fails. -/
theorem exists_permutePadBlock {pads : KeyedFunction} (h : Answers pads 24) (block : Halves 24) :
    ∃ permuted, permutePadBlock pads block = .ok permuted := by
  obtain ⟨permuted, hpermuted⟩ := Halves.exists_permute h block
  exact ⟨permuted, by rw [permutePadBlock_eq, hpermuted]; rfl⟩

/-- A map that is listed from a function has the values of the function at the wires listed. -/
theorem getElem?_ofList_map {β : Type} (f : Wire → β) (wires : List Wire) (wire : Wire) :
    (Std.ExtTreeMap.ofList (wires.map fun w => (w, f w)) : WireMap β)[wire]? =
      if wire ∈ wires then some (f wire) else none := by
  suffices hinsert : ∀ start : WireMap β,
      (start.insertMany (wires.map fun w => (w, f w)))[wire]? =
        if wire ∈ wires then some (f wire) else start[wire]? by
    rw [Std.ExtTreeMap.ofList_eq_insertMany_empty, hinsert, Std.ExtTreeMap.getElem?_empty]
  intro start
  induction wires generalizing start with
  | nil => rfl
  | cons first wires ih =>
    rw [List.map_cons, Std.ExtTreeMap.insertMany_cons, ih, Std.ExtTreeMap.getElem?_insert]
    by_cases hrest : wire ∈ wires
    · simp [hrest]
    · by_cases hfirst : first = wire
      · simp [hfirst]
      · simp [hrest, hfirst, Ne.symm hfirst]

namespace GateCipher

/-- The functions of a cipher answer the lengths of label material and of half a pad block. -/
structure Sound (cipher : GateCipher) : Prop where
  /-- Two labels and a permute bit can be derived for every wire. -/
  labels : Answers cipher.labels 33
  /-- The permutation of pad blocks has its round function. -/
  pads : Answers cipher.pads 24

variable {cipher : GateCipher}

/-- Every wire has labels. -/
theorem Sound.exists_wireLabels (h : cipher.Sound) (wire : Wire) :
    ∃ labels, cipher.wireLabels wire = .ok labels := by
  obtain ⟨bytes, hbytes⟩ := h.labels (Bytes.littleEndian 4 wire.toNat)
  exact ⟨_, bind_eq_ok_iff.mpr ⟨bytes, hbytes, rfl⟩⟩

/-- One choice of labels serves all wires. -/
theorem Sound.exists_labels (h : cipher.Sound) :
    ∃ labels : Wire → WireLabels, ∀ wire, cipher.wireLabels wire = .ok (labels wire) :=
  Classical.skolem.mp h.exists_wireLabels

/-- Where every wire has labels, those of a list of wires are found under these wires. -/
theorem labelsOf_eq_ok {labels : Wire → WireLabels}
    (hlabels : ∀ wire, cipher.wireLabels wire = .ok (labels wire)) (wires : List Wire) :
    cipher.labelsOf wires = .ok (.ofList (wires.map fun wire => (wire, labels wire))) := by
  have hentries : (wires.mapM fun wire => do
      let found ← cipher.wireLabels wire
      return (wire, found)) = Except.ok (wires.map fun wire => (wire, labels wire)) := by
    apply mapM_eq_pure_map
    intro wire _
    rw [hlabels]
    rfl
  exact bind_eq_ok_iff.mpr ⟨_, hentries, rfl⟩

/-- Hence any list of wires has labels. -/
theorem Sound.exists_labelsOf (h : cipher.Sound) (wires : List Wire) :
    ∃ labels, cipher.labelsOf wires = .ok labels := by
  obtain ⟨labels, hlabels⟩ := h.exists_labels
  exact ⟨_, labelsOf_eq_ok hlabels wires⟩

/-- Every row of every gate has a pad for any two labels. -/
theorem Sound.exists_rowPad (h : cipher.Sound) (gate row : Nat) (left right : Label) :
    ∃ pad, cipher.rowPad gate row left right = .ok pad := by
  obtain ⟨permuted, hpermuted⟩ := exists_permutePadBlock h.pads (padBlock gate row left right)
  exact ⟨_, bind_eq_ok_iff.mpr ⟨permuted, hpermuted, rfl⟩⟩

/-- A row is the output label and its signal bit under the pad of the two operands. -/
theorem sealRow_eq_ok_iff {gate : Nat} {table : TruthTable} {a b c : WireLabels} {sa sb : Bool}
    {row : Bytes} :
    cipher.sealRow gate table a b c (sa, sb) = .ok row ↔
      ∃ pad, cipher.rowPad gate (rowIndex sa sb) (a.label (sa ^^ a.permute))
          (b.label (sb ^^ b.permute)) = .ok pad ∧
        row = (xorVector (plainRow (c.label (table.eval (sa ^^ a.permute) (sb ^^ b.permute)))
          (c.signal (table.eval (sa ^^ a.permute) (sb ^^ b.permute)))) pad).toList := by
  unfold sealRow
  rw [bind_eq_ok_iff]
  constructor
  · rintro ⟨pad, hpad, h⟩
    cases h
    exact ⟨pad, hpad, rfl⟩
  · rintro ⟨pad, hpad, rfl⟩
    exact ⟨pad, hpad, rfl⟩

/-- A table is the concatenation of its four rows, for the labels of the three wires. -/
theorem garbleGate_eq_ok_iff {gate : Gate} {index : Nat} {table : Bytes} :
    cipher.garbleGate (gate, index) = .ok table ↔
      ∃ a b c rows, cipher.wireLabels gate.left = .ok a ∧ cipher.wireLabels gate.right = .ok b ∧
        cipher.wireLabels gate.output = .ok c ∧
        signalPairs.mapM (cipher.sealRow index gate.table a b c) = .ok rows ∧
        table = rows.flatten := by
  unfold garbleGate
  constructor
  · intro h
    obtain ⟨a, ha, h⟩ := bind_eq_ok_iff.mp h
    obtain ⟨b, hb, h⟩ := bind_eq_ok_iff.mp h
    obtain ⟨c, hc, h⟩ := bind_eq_ok_iff.mp h
    obtain ⟨rows, hrows, h⟩ := bind_eq_ok_iff.mp h
    cases h
    exact ⟨a, b, c, rows, mapError_eq_ok_iff.mp ha, mapError_eq_ok_iff.mp hb,
      mapError_eq_ok_iff.mp hc, hrows, rfl⟩
  · rintro ⟨a, b, c, rows, ha, hb, hc, hrows, rfl⟩
    exact bind_eq_ok_iff.mpr ⟨a, mapError_eq_ok_iff.mpr ha, bind_eq_ok_iff.mpr ⟨b,
      mapError_eq_ok_iff.mpr hb, bind_eq_ok_iff.mpr ⟨c, mapError_eq_ok_iff.mpr hc,
        bind_eq_ok_iff.mpr ⟨rows, hrows, rfl⟩⟩⟩⟩

/-- Every row has one length. -/
theorem length_of_sealRow {gate : Nat} {table : TruthTable} {a b c : WireLabels}
    {signals : Bool × Bool} {row : Bytes}
    (h : cipher.sealRow gate table a b c signals = .ok row) : row.length = rowLength := by
  obtain ⟨sa, sb⟩ := signals
  obtain ⟨pad, _, rfl⟩ := sealRow_eq_ok_iff.mp h
  rw [Vector.length_toList]
  rfl

/-- So has every table. -/
theorem length_of_garbleGate {indexed : Gate × Nat} {table : Bytes}
    (h : cipher.garbleGate indexed = .ok table) : table.length = tableLength := by
  obtain ⟨a, b, c, rows, _, _, _, hrows, rfl⟩ := garbleGate_eq_ok_iff.mp h
  have hwidth : ∀ row ∈ rows, row.length = rowLength :=
    forall_mem_of_mapM hrows fun _ _ _ => length_of_sealRow
  rw [Bytes.length_flatten_of_forall hwidth, length_of_mapM hrows]
  rfl

/-- Every gate can be garbled. -/
theorem Sound.exists_garbleGate (h : cipher.Sound) (indexed : Gate × Nat) :
    ∃ table, cipher.garbleGate indexed = .ok table := by
  obtain ⟨gate, index⟩ := indexed
  obtain ⟨a, ha⟩ := h.exists_wireLabels gate.left
  obtain ⟨b, hb⟩ := h.exists_wireLabels gate.right
  obtain ⟨c, hc⟩ := h.exists_wireLabels gate.output
  have hrow : ∀ signals ∈ signalPairs,
      ∃ row, cipher.sealRow index gate.table a b c signals = .ok row := by
    rintro ⟨sa, sb⟩ _
    obtain ⟨pad, hpad⟩ := h.exists_rowPad index (rowIndex sa sb) (a.label (sa ^^ a.permute))
      (b.label (sb ^^ b.permute))
    exact ⟨_, sealRow_eq_ok_iff.mpr ⟨pad, hpad, rfl⟩⟩
  obtain ⟨rows, hrows⟩ := exists_mapM_eq_ok hrow
  exact ⟨rows.flatten, garbleGate_eq_ok_iff.mpr ⟨a, b, c, rows, ha, hb, hc, hrows, rfl⟩⟩

/-- A list of gates can be garbled, wherever the numbering starts. -/
theorem Sound.exists_tables (h : cipher.Sound) (gates : List (Gate × Nat)) :
    ∃ tables, gates.mapM cipher.garbleGate = .ok tables :=
  exists_mapM_eq_ok fun indexed _ => h.exists_garbleGate indexed

end GateCipher

/-- Whatever the generator, a seed that it accepts gives a cipher that never refuses, and the hasher
is not touched. -/
theorem Garbling.sound_of_cipherOfSeed {γ : Type} [Generator γ] {algorithm : PrfAlgorithm}
    {seed : Bytes} {workspace after : Workspace γ} {cipher : GateCipher}
    (h : (cipherOfSeed algorithm seed).run workspace = (.ok cipher, after)) :
    cipher.Sound ∧ after.hasher = workspace.hasher := by
  unfold cipherOfSeed at h
  obtain ⟨_, seeded, hseeded, hfill⟩ := run_bind_eq_ok h
  obtain ⟨key, filled, hfilled, hkeyed⟩ := run_bind_eq_ok hfill
  obtain ⟨labels, w, hlabelsRun, hpublic⟩ := run_bind_eq_ok hkeyed
  obtain ⟨pads, w', hpadsRun, hreturn⟩ := run_bind_eq_ok hpublic
  obtain ⟨hlabels, hw⟩ := Run.run_ofPrimitive_eq_ok hlabelsRun
  obtain ⟨hpads, hw'⟩ := Run.run_ofPrimitive_eq_ok hpadsRun
  rw [hw', hw] at hreturn
  cases hreturn
  refine ⟨⟨PrfAlgorithm.answers_of_keyed hlabels (by decide),
    PrfAlgorithm.answers_of_keyed hpads (by decide)⟩, ?_⟩
  have hfirst := Run.hasher_run_onGenerator (Generator.seed seed) workspace
  have hsecond := Run.hasher_run_onGenerator (Generator.fill algorithm.keyLength) seeded
  rw [hseeded] at hfirst
  rw [hfilled] at hsecond
  exact hsecond.trans hfirst

end SeededGarbling
