import Mathlib.Data.List.Nodup
import Mathlib.Data.List.ProdSigma
import SeededGarbling.Bytes.Digits
import SeededGarbling.Proofs.Batches
import SeededGarbling.Proofs.Declared
import SeededGarbling.Proofs.Inverse
import SeededGarbling.Proofs.Preparation

/-!
# Every row has a pad of its own

A run is watched at the permutation behind its pads. The numbers of the gate and the row are part of
what is permuted, at fixed places and at a fixed width, so no labels can make two rows ask for the same
block, and the permutation keeps different blocks apart. A run that keeps its tables and one that works
in batches are seen to do the same: they number the gates alike and come to every row once.
-/

namespace SeededGarbling

open Traversal

namespace Halves

variable {n : Nat}

/-- The bytes of a block determine its halves. -/
theorem toBytes_injective : Function.Injective (toBytes (n := n)) := by
  intro block other h
  have hback := block.ofBytes_toBytes
  simp only [h, ofBytes_toBytes] at hback
  exact hback.symm

variable {f : KeyedFunction} {numbers : List UInt8} {block other last : Halves n}

/-- Rounds that succeed follow a trace, whether or not the round function answers elsewhere. -/
theorem exists_trace_of_run (h : (numbers.foldlM (permuteRound (m := Id) f) block).run = .ok last) :
    ∃ asked, Trace f numbers block last asked := by
  induction numbers generalizing block with
  | nil =>
    cases h
    exact ⟨[], .nil _⟩
  | cons number numbers ih =>
    change ExceptT.bindCont (m := Id) _ (permuteRound (m := Id) f block number).run = _ at h
    cases hmask : f (block.right.toList ++ [number]) n with
    | error cause =>
      have hround : (permuteRound (m := Id) f block number).run = .error cause := by
        change ExceptT.bindCont (m := Id) _ (f (block.right.toList ++ [number]) n) = _
        rw [hmask]
        rfl
      rw [hround] at h
      cases h
    | ok mask =>
      rw [permuteRound_eq_ok hmask] at h
      obtain ⟨asked, htrace⟩ := ih h
      exact ⟨_, .cons hmask htrace⟩

/-- No two blocks are permuted to one: the trace of either leads back to it. -/
theorem permute_injective (h : (permute (m := Id) f block).run = .ok last)
    (h' : (permute (m := Id) f other).run = .ok last) : block = other := by
  obtain ⟨_, htrace⟩ := exists_trace_of_run h
  obtain ⟨_, htrace'⟩ := exists_trace_of_run h'
  have hback := run_permuteRounds_of_trace htrace.reverse
  rw [run_permuteRounds_of_trace htrace'.reverse, Except.ok.injEq] at hback
  exact (congrArg swap hback).symm

end Halves

/-- Nor are two pad blocks by the checked call behind a pad. -/
theorem permutePadBlock_injective {pads : KeyedFunction} {block other last : Halves 24}
    (h : permutePadBlock pads block = .ok last) (h' : permutePadBlock pads other = .ok last) :
    block = other := by
  rw [permutePadBlock_eq] at h h'
  exact Halves.permute_injective (mapError_eq_ok_iff.mp h) (mapError_eq_ok_iff.mp h')

/-- The numbers of gate and row can be read off a block, whatever the labels in it. -/
theorem padBlock_inj {gate row gate' row' : Nat} {left right left' right' : Label}
    (hgate : gate < 2 ^ 64) (hgate' : gate' < 2 ^ 64) (hrow : row < 2 ^ 64) (hrow' : row' < 2 ^ 64)
    (h : padBlock gate row left right = padBlock gate' row' left' right') :
    gate = gate' ∧ row = row' := by
  obtain ⟨_, hgates⟩ := Vector.append_inj (congrArg Halves.left h)
  obtain ⟨_, hrows⟩ := Vector.append_inj (congrArg Halves.right h)
  have hgates := congrArg Vector.toList hgates
  have hrows := congrArg Vector.toList hrows
  rw [Bytes.toList_toVector, Bytes.toList_toVector] at hgates hrows
  exact ⟨Bytes.littleEndian_inj hgate hgate' hgates, Bytes.littleEndian_inj hrow hrow' hrows⟩

/-- One use of the permutation behind the pads. -/
structure PadUse where
  /-- The number of the gate. -/
  gate : Nat
  /-- The number of the row. -/
  row : Nat
  /-- What is permuted. -/
  block : Halves 24
  /-- What comes of it. -/
  permuted : Except GarbleError (Halves 24)

namespace PadUse

/-- The row of a gate that the permutation is used for. -/
def place (use : PadUse) : Nat × Nat :=
  (use.gate, use.row)

/-- The block is that of the row for some labels, and it is permuted with the given round function. -/
def Under (pads : KeyedFunction) (use : PadUse) : Prop :=
  (∃ left right, use.block = padBlock use.gate use.row left right) ∧
    use.permuted = permutePadBlock pads use.block

/-- The permutation is never used twice for a row, nor given the same bytes twice, nor does it ever
yield the same bytes twice. -/
structure Separate (uses : List PadUse) : Prop where
  /-- Every row has one use at most. -/
  places : (uses.map place).Nodup
  /-- What is permuted differs from use to use. -/
  blocks : (uses.map fun use => use.block.toBytes).Nodup
  /-- So does what comes of it. -/
  results : ∃ results : List (Halves 24),
    uses.map permuted = results.map .ok ∧ (results.map Halves.toBytes).Nodup

variable {pads : KeyedFunction} {use other : PadUse} {uses : List PadUse}

/-- The numbers of gate and row fit the places that they have in a block. -/
def Fits (use : PadUse) : Prop :=
  use.gate < 2 ^ 64 ∧ use.row < 2 ^ 64

/-- Uses for different rows have different blocks, whatever the labels. -/
theorem block_ne_of_place_ne (hunder : use.Under pads) (hother : other.Under pads)
    (hfits : use.Fits) (hfits' : other.Fits) (hplace : use.place ≠ other.place) :
    use.block ≠ other.block := by
  obtain ⟨⟨left, right, hfed⟩, _⟩ := hunder
  obtain ⟨⟨left', right', hfed'⟩, _⟩ := hother
  intro hblock
  rw [hfed, hfed'] at hblock
  obtain ⟨hgate, hrow⟩ := padBlock_inj hfits.1 hfits'.1 hfits.2 hfits'.2 hblock
  exact hplace (Prod.ext hgate hrow)

/-- Hence what comes of them is different, where anything does. -/
theorem permuted_ne_of_place_ne (hunder : use.Under pads) (hother : other.Under pads)
    (hfits : use.Fits) (hfits' : other.Fits) (hplace : use.place ≠ other.place)
    {permuted : Halves 24} (h : use.permuted = .ok permuted) : other.permuted ≠ .ok permuted := by
  intro h'
  rw [hunder.2] at h
  rw [hother.2] at h'
  exact block_ne_of_place_ne hunder hother hfits hfits' hplace (permutePadBlock_injective h h')

/-- Where the round function answers, every block is permuted. -/
theorem exists_results (hpads : Answers pads 24) (hunder : ∀ use ∈ uses, use.Under pads) :
    ∃ results : List (Halves 24), uses.map permuted = results.map .ok := by
  induction uses with
  | nil => exact ⟨[], rfl⟩
  | cons use uses ih =>
    rw [List.forall_mem_cons] at hunder
    obtain ⟨results, hresults⟩ := ih hunder.2
    obtain ⟨result, hresult⟩ := exists_permutePadBlock hpads use.block
    refine ⟨result :: results, ?_⟩
    rw [List.map_cons, List.map_cons, hresults, hunder.1.2, hresult]

/-- So uses for different rows, however many, have nothing in common. -/
theorem separate_of_nodup_places (hpads : Answers pads 24)
    (hunder : ∀ use ∈ uses, use.Under pads) (hfits : ∀ use ∈ uses, use.Fits)
    (hplaces : (uses.map place).Nodup) : Separate uses := by
  obtain ⟨results, hresults⟩ := exists_results hpads hunder
  have hpairs := List.pairwise_map.mp hplaces
  have hblocks : (uses.map block).Nodup := List.pairwise_map.mpr <|
    hpairs.imp_of_mem fun huse hother =>
      block_ne_of_place_ne (hunder _ huse) (hunder _ hother) (hfits _ huse) (hfits _ hother)
  have hpermuted : (uses.map permuted).Nodup := by
    refine List.pairwise_map.mpr (hpairs.imp_of_mem fun {use other} huse hother hplace heq => ?_)
    obtain ⟨result, hresult⟩ := exists_permutePadBlock hpads use.block
    rw [← (hunder use huse).2] at hresult
    exact permuted_ne_of_place_ne (hunder use huse) (hunder other hother) (hfits use huse)
      (hfits other hother) hplace hresult (heq ▸ hresult)
  rw [hresults] at hpermuted
  refine ⟨hplaces, ?_, results, hresults, (hpermuted.of_map _).map Halves.toBytes_injective⟩
  have hbytes := hblocks.map Halves.toBytes_injective
  rwa [List.map_map] at hbytes

end PadUse

/-- A computation that may stop, and that notes what it permutes. -/
abbrev Noted :=
  ExceptT GarbleError (StateM (List PadUse))

namespace Noted

variable {α β : Type}

/-- A traversal that goes through notes what its steps note, one behind the other. -/
theorem run_mapM_of_ok {f : α → Noted β} {g : α → Except GarbleError β}
    {noted : α → List PadUse} {xs : List α} {ys : List β}
    (hf : ∀ x ∈ xs, ∀ y, g x = .ok y → ∀ uses, (f x).run uses = (.ok y, uses ++ noted x))
    (h : xs.mapM g = .ok ys) (uses : List PadUse) :
    (xs.mapM f).run uses = (.ok ys, uses ++ xs.flatMap noted) := by
  induction xs generalizing ys uses with
  | nil =>
    cases h
    rw [List.flatMap_nil, List.append_nil]
    rfl
  | cons x xs ih =>
    rw [List.mapM_cons] at h
    obtain ⟨y, hy, h⟩ := bind_eq_ok_iff.mp h
    obtain ⟨rest, hrest, h⟩ := bind_eq_ok_iff.mp h
    cases h
    have hxs := ih (fun z hz => hf z (List.mem_cons_of_mem x hz)) hrest (uses ++ noted x)
    rw [List.mapM_cons, run_bind_of_ok (hf x List.mem_cons_self y hy uses), run_bind_of_ok hxs,
      List.flatMap_cons, List.append_assoc]
    rfl

end Noted

namespace GateCipher

variable {cipher : GateCipher}

/-- What the permutation is used for to seal a row that a pair of labels opens. -/
def padUse (cipher : GateCipher) (gate row : Nat) (left right : Label) : PadUse :=
  let block := padBlock gate row left right
  ⟨gate, row, block, permutePadBlock cipher.pads block⟩

/-- The pad of a row; its block is noted down as it goes into the permutation. -/
def rowPadNoted (cipher : GateCipher) (gate row : Nat) (left right : Label) :
    Noted (Vector UInt8 17) := do
  let use := cipher.padUse gate row left right
  modify fun uses => uses ++ [use]
  let permuted ← MonadExcept.ofExcept use.permuted
  return (xorVector permuted.left use.block.left).take 17

/-- The sealed row for a pair of signal bits, its pad noted down. -/
def sealRowNoted (cipher : GateCipher) (gate : Nat) (table : TruthTable) (a b c : WireLabels)
    (signals : Bool × Bool) : Noted Bytes := do
  let va := signals.1 ^^ a.permute
  let vb := signals.2 ^^ b.permute
  let vc := table.eval va vb
  let pad ← cipher.rowPadNoted gate (rowIndex signals.1 signals.2) (a.label va) (b.label vb)
  return (xorVector (plainRow (c.label vc) (c.signal vc)) pad).toList

/-- The garbled table of a gate, its pads noted down. -/
def garbleGateNoted (cipher : GateCipher) (indexed : Gate × Nat) : Noted Bytes := do
  let (gate, index) := indexed
  let a ← MonadExcept.ofExcept ((cipher.wireLabels gate.left).mapError .key)
  let b ← MonadExcept.ofExcept ((cipher.wireLabels gate.right).mapError .key)
  let c ← MonadExcept.ofExcept ((cipher.wireLabels gate.output).mapError .key)
  let rows ← signalPairs.mapM (cipher.sealRowNoted index gate.table a b c)
  return rows.flatten

/-- The uses for a gate, row after row, with the labels that open each. -/
def gateUses (cipher : GateCipher) (labels : Wire → WireLabels) (indexed : Gate × Nat) :
    List PadUse :=
  let a := labels indexed.1.left
  let b := labels indexed.1.right
  signalPairs.map fun signals =>
    cipher.padUse indexed.2 (rowIndex signals.1 signals.2) (a.label (signals.1 ^^ a.permute))
      (b.label (signals.2 ^^ b.permute))

/-- Noting it down does not change the pad. -/
theorem run_rowPadNoted (cipher : GateCipher) (gate row : Nat) (left right : Label)
    (uses : List PadUse) :
    (cipher.rowPadNoted gate row left right).run uses =
      (cipher.rowPad gate row left right, uses ++ [cipher.padUse gate row left right]) := by
  unfold rowPadNoted rowPad padUse
  dsimp only
  cases permutePadBlock cipher.pads (padBlock gate row left right) with
  | error cause => rfl
  | ok permuted => rfl

/-- Nor does it change the row. -/
theorem run_sealRowNoted {gate : Nat} {table : TruthTable} {a b c : WireLabels}
    {signals : Bool × Bool} {row : Bytes} (h : cipher.sealRow gate table a b c signals = .ok row)
    (uses : List PadUse) :
    (cipher.sealRowNoted gate table a b c signals).run uses =
      (.ok row, uses ++ [cipher.padUse gate (rowIndex signals.1 signals.2)
        (a.label (signals.1 ^^ a.permute)) (b.label (signals.2 ^^ b.permute))]) := by
  obtain ⟨sa, sb⟩ := signals
  obtain ⟨pad, hpad, rfl⟩ := sealRow_eq_ok_iff.mp h
  have hnoted := cipher.run_rowPadNoted gate (rowIndex sa sb) (a.label (sa ^^ a.permute))
    (b.label (sb ^^ b.permute)) uses
  rw [hpad] at hnoted
  exact run_bind_of_ok hnoted

/-- Nor the table, whose four rows are noted down. -/
theorem run_garbleGateNoted {labels : Wire → WireLabels}
    (hlabels : ∀ wire, cipher.wireLabels wire = .ok (labels wire)) {indexed : Gate × Nat}
    {table : Bytes} (h : cipher.garbleGate indexed = .ok table) (uses : List PadUse) :
    (cipher.garbleGateNoted indexed).run uses =
      (.ok table, uses ++ cipher.gateUses labels indexed) := by
  obtain ⟨gate, index⟩ := indexed
  obtain ⟨a, b, c, rows, ha, hb, hc, hrows, rfl⟩ := garbleGate_eq_ok_iff.mp h
  have hread : ∀ {wire found}, cipher.wireLabels wire = .ok found →
      (MonadExcept.ofExcept ((cipher.wireLabels wire).mapError .key) : Noted WireLabels).run uses =
        (.ok found, uses) := by
    intro wire found hfound
    rw [run_ofExcept, hfound]
    rfl
  have hnoted := Noted.run_mapM_of_ok (fun _ _ _ hrow => run_sealRowNoted hrow) hrows uses
  unfold garbleGateNoted
  rw [run_bind_of_ok (hread ha), run_bind_of_ok (hread hb), run_bind_of_ok (hread hc),
    run_bind_of_ok hnoted]
  rw [hlabels, Except.ok.injEq] at ha hb
  rw [gateUses, ha, hb]
  rfl

/-- The uses for a gate are for its four rows. -/
theorem map_place_gateUses (cipher : GateCipher) (labels : Wire → WireLabels)
    (indexed : Gate × Nat) :
    (cipher.gateUses labels indexed).map PadUse.place =
      (List.range 4).map fun row => (indexed.2, row) := rfl

/-- The uses for all gates of a circuit. -/
def circuitUses (cipher : GateCipher) (labels : Wire → WireLabels) (circuit : Circuit) :
    List PadUse :=
  circuit.gates.zipIdx.flatMap (cipher.gateUses labels)

/-- They come to every row of every gate, one after the other. -/
theorem map_place_circuitUses (cipher : GateCipher) (labels : Wire → WireLabels)
    (circuit : Circuit) :
    (cipher.circuitUses labels circuit).map PadUse.place =
      List.range circuit.gateCount ×ˢ List.range 4 := by
  have hnumbers : circuit.gates.zipIdx.map Prod.snd = List.range circuit.gateCount := by
    rw [List.zipIdx_map_snd, Circuit.gateCount, List.range_eq_range']
  unfold circuitUses
  simp only [List.map_flatMap, map_place_gateUses]
  change _ = (List.range circuit.gateCount).flatMap fun gate => (List.range 4).map (Prod.mk gate)
  rw [← hnumbers, List.flatMap_map]

/-- All of them are made under the round function of the cipher. -/
theorem under_of_mem_circuitUses {labels : Wire → WireLabels} {circuit : Circuit} {use : PadUse}
    (h : use ∈ cipher.circuitUses labels circuit) : use.Under cipher.pads := by
  obtain ⟨indexed, _, huse⟩ := List.mem_flatMap.mp h
  obtain ⟨signals, _, rfl⟩ := List.mem_map.mp huse
  exact ⟨⟨_, _, rfl⟩, rfl⟩

end GateCipher

/-- A run that notes what it permutes. -/
abbrev NotedRun (γ : Type) :=
  ExceptT GarbleError (StateM (Workspace γ × List PadUse))

namespace NotedRun

variable {γ α : Type}

/-- A part of a run that permutes nothing. -/
def unwatched (part : Run γ α) : NotedRun γ α :=
  ExceptT.mk fun (workspace, uses) =>
    let (result, workspace') := part.run workspace
    (result, (workspace', uses))

/-- A part that is watched; the run is told how it ended. -/
def watch (part : Noted α) : NotedRun γ (Except GarbleError α) :=
  ExceptT.mk fun (workspace, uses) =>
    let (result, uses') := part.run uses
    (.ok result, (workspace, uses'))

/-- Where nothing is permuted nothing is noted. -/
theorem run_unwatched {part : Run γ α} {result : Except GarbleError α}
    {workspace after : Workspace γ} (h : part.run workspace = (result, after))
    (uses : List PadUse) : (unwatched part).run (workspace, uses) = (result, (after, uses)) := by
  change ((part.run workspace).1, ((part.run workspace).2, uses)) = _
  rw [h]

/-- To watch a part does not end the run, and the workspace is not touched. -/
theorem run_watch {part : Noted α} {result : Except GarbleError α} {uses after : List PadUse}
    (h : part.run uses = (result, after)) (workspace : Workspace γ) :
    (watch part).run (workspace, uses) = (.ok result, (workspace, after)) := by
  change (Except.ok (part.run uses).1, (workspace, (part.run uses).2)) = _
  rw [h]

end NotedRun

namespace Garbling

variable {γ : Type}

/-- Garbles a circuit and notes what is permuted. -/
def garbleNoted [Generator γ] (algorithm : PrfAlgorithm) (circuit : Circuit) (seed : Bytes) :
    NotedRun γ Garbling := do
  let cipher ← NotedRun.unwatched (prepare algorithm circuit seed)
  let tables ← NotedRun.watch (circuit.gates.zipIdx.mapM cipher.garbleGateNoted)
  NotedRun.unwatched do
    let tables ← MonadExcept.ofExcept tables
    let inputLabels ← Run.ofPrimitive (cipher.labelsOf circuit.inputs)
    let outputLabels ← Run.ofPrimitive (cipher.labelsOf circuit.outputs)
    Run.absorb tables
    let digest ← Run.finalize
    return {
      tables := .ofTables tables
      decoding := ⟨outputLabels.map fun _ labels => labels.permute⟩
      inputLabels := inputLabels
      outputLabels := outputLabels
      digest := digest }

/-- Garbles batches of gates, absorbs their tables and notes what is permuted. -/
def absorbBatchesNoted (cipher : GateCipher) : (count base : Nat) → List Gate → NotedRun γ Unit
  | 0, _, _ => return
  | count + 1, base, gates => do
    match ← NotedRun.watch (((gates.take batchSize).zipIdx base).mapM cipher.garbleGateNoted) with
    | .ok tables =>
      NotedRun.unwatched (Run.absorb tables)
      absorbBatchesNoted cipher count (base + batchSize) (gates.drop batchSize)
    | .error cause =>
      let _ ← NotedRun.unwatched Run.finalize
      throw cause

/-- Garbles a circuit for the digest alone and notes what is permuted. -/
def digestOnlyNoted [Generator γ] (algorithm : PrfAlgorithm) (circuit : Circuit) (seed : Bytes) :
    NotedRun γ Bytes := do
  let cipher ← NotedRun.unwatched (prepare algorithm circuit seed)
  absorbBatchesNoted cipher ((circuit.gateCount + batchSize - 1) / batchSize) 0 circuit.gates
  NotedRun.unwatched Run.finalize

variable {cipher : GateCipher} {labels : Wire → WireLabels}

/-- Gate after gate is noted down as its table is made. -/
theorem run_garbleGates (hlabels : ∀ wire, cipher.wireLabels wire = .ok (labels wire))
    {gates : List (Gate × Nat)} {tables : List Bytes}
    (htables : gates.mapM cipher.garbleGate = .ok tables) (uses : List PadUse) :
    (gates.mapM cipher.garbleGateNoted).run uses =
      (.ok tables, uses ++ gates.flatMap (cipher.gateUses labels)) :=
  Noted.run_mapM_of_ok (fun _ _ _ htable => GateCipher.run_garbleGateNoted hlabels htable) htables
    uses

/-- Enough batches note down all gates, numbered as if there were no batches. -/
theorem run_absorbBatchesNoted (hlabels : ∀ wire, cipher.wireLabels wire = .ok (labels wire))
    {count base : Nat} {gates : List Gate} (hcount : gates.length ≤ count * batchSize)
    {tables : List Bytes} (htables : (gates.zipIdx base).mapM cipher.garbleGate = .ok tables)
    (workspace : Workspace γ) (uses : List PadUse) :
    (absorbBatchesNoted cipher count base gates).run (workspace, uses) =
      (.ok (), ({ workspace with hasher := workspace.hasher.updateAll tables },
        uses ++ (gates.zipIdx base).flatMap (cipher.gateUses labels))) := by
  induction count generalizing base gates tables workspace uses with
  | zero =>
    have hgates : gates = [] := List.length_eq_zero_iff.mp (by omega)
    subst hgates
    cases htables
    rw [List.zipIdx_nil, List.flatMap_nil, List.append_nil]
    rfl
  | succ count ih =>
    obtain ⟨batch, others, hbatch, hothers, rfl⟩ := exists_batch htables
    unfold absorbBatchesNoted
    rw [run_bind_of_ok (NotedRun.run_watch (run_garbleGates hlabels hbatch uses) workspace)]
    dsimp only
    rw [run_bind_of_ok (NotedRun.run_unwatched (Run.run_absorb batch workspace) _),
      ih (length_drop_batchSize hcount) hothers, Hasher.updateAll_append, zipIdx_batch gates base,
      List.flatMap_append, List.append_assoc]

section Run

variable [Generator γ] {algorithm : PrfAlgorithm} {circuit : Circuit} {seed : Bytes}
  {workspace prepared : Workspace γ}

/-- A run that ends with its preparation permutes nothing. -/
theorem run_noted_of_refused {cause : GarbleError}
    (h : (prepare algorithm circuit seed).run workspace = (.error cause, prepared))
    (uses : List PadUse) :
    (garbleNoted algorithm circuit seed).run (workspace, uses) =
        (.error cause, (prepared, uses)) ∧
      (digestOnlyNoted algorithm circuit seed).run (workspace, uses) =
        (.error cause, (prepared, uses)) :=
  ⟨run_bind_of_error (NotedRun.run_unwatched h uses),
    run_bind_of_error (NotedRun.run_unwatched h uses)⟩

/-- With a cipher every gate is noted down, and the tables are what they are without. -/
theorem run_garbleNoted_of_prepared
    (h : (prepare algorithm circuit seed).run workspace = (.ok cipher, prepared))
    (hlabels : ∀ wire, cipher.wireLabels wire = .ok (labels wire)) (uses : List PadUse) :
    (garbleNoted algorithm circuit seed).run (workspace, uses) =
      (((garble algorithm circuit seed).run workspace).1,
        (((garble algorithm circuit seed).run workspace).2,
          uses ++ cipher.circuitUses labels circuit)) := by
  obtain ⟨hsound, _⟩ := sound_of_cipherOfSeed (run_prepare_eq_ok_iff.mp h).2
  obtain ⟨tables, htables⟩ := hsound.exists_tables circuit.gates.zipIdx
  unfold garbleNoted garble
  rw [run_bind_of_ok (NotedRun.run_unwatched h uses),
    run_bind_of_ok (NotedRun.run_watch (run_garbleGates hlabels htables uses) prepared),
    prepare_bind, run_bind_of_ok h, htables]
  rfl

/-- The same gates are noted down where the digest is all that is kept. -/
theorem run_digestOnlyNoted_of_prepared
    (h : (prepare algorithm circuit seed).run workspace = (.ok cipher, prepared))
    (hlabels : ∀ wire, cipher.wireLabels wire = .ok (labels wire)) (uses : List PadUse) :
    (digestOnlyNoted algorithm circuit seed).run (workspace, uses) =
      (((digestOnly algorithm circuit seed).run workspace).1,
        (((digestOnly algorithm circuit seed).run workspace).2,
          uses ++ cipher.circuitUses labels circuit)) := by
  obtain ⟨hsound, _⟩ := sound_of_cipherOfSeed (run_prepare_eq_ok_iff.mp h).2
  obtain ⟨tables, htables⟩ := hsound.exists_tables circuit.gates.zipIdx
  have hcount := length_le_batches circuit
  unfold digestOnlyNoted digestOnly
  rw [run_bind_of_ok (NotedRun.run_unwatched h uses),
    run_bind_of_ok (run_absorbBatchesNoted hlabels hcount htables prepared uses),
    prepare_bind, run_bind_of_ok h, run_bind_of_ok (run_absorbBatches hcount htables prepared)]
  rfl

/-- What a cipher permutes for a circuit that is not too large has nothing in common. -/
theorem separate_circuitUses (hpads : Answers cipher.pads 24) (hgates : circuit.gateCount < 2 ^ 64) :
    PadUse.Separate (cipher.circuitUses labels circuit) := by
  have hplaces := cipher.map_place_circuitUses labels circuit
  refine PadUse.separate_of_nodup_places hpads
    (fun use huse => GateCipher.under_of_mem_circuitUses huse) (fun use huse => ?_) ?_
  · have hplace := List.mem_map_of_mem (f := PadUse.place) huse
    rw [hplaces] at hplace
    obtain ⟨hgate, hrow⟩ := List.pair_mem_product.mp hplace
    exact ⟨Nat.lt_trans (List.mem_range.mp hgate) hgates,
      Nat.lt_trans (List.mem_range.mp hrow) (by decide)⟩
  · rw [hplaces]
    exact List.nodup_range.product List.nodup_range

end Run

/-- Under one round function, two uses of the permutation for different rows are given different blocks
and yield different ones, whatever the labels are. In a run with a valid circuit that is not too large,
no row comes up twice; with a key for the labels every row of every gate comes up, and without one none.
This is so whether the tables are kept or garbled in batches for the digest alone, and to watch a run
does not change it. -/
theorem rows_never_share_pads [Generator γ] (algorithm : PrfAlgorithm) {circuit : Circuit}
    (hvalid : circuit.validate = .ok ()) (hgates : circuit.gateCount < 2 ^ 64) (seed : Bytes)
    (workspace : Workspace γ) :
    (∀ (pads : KeyedFunction) (use other : PadUse), use.Under pads → other.Under pads →
      use.Fits → other.Fits → use.place ≠ other.place →
        use.block.toBytes ≠ other.block.toBytes ∧
          ∀ permuted permuted', use.permuted = .ok permuted → other.permuted = .ok permuted' →
            permuted.toBytes ≠ permuted'.toBytes) ∧
    ∃ uses : List PadUse,
      (garbleNoted algorithm circuit seed).run (workspace, []) =
        (((garble algorithm circuit seed).run workspace).1,
          (((garble algorithm circuit seed).run workspace).2, uses)) ∧
      (digestOnlyNoted algorithm circuit seed).run (workspace, []) =
        (((digestOnly algorithm circuit seed).run workspace).1,
          (((digestOnly algorithm circuit seed).run workspace).2, uses)) ∧
      PadUse.Separate uses ∧
      (∃ pads, algorithm.keyed publicKey = .ok pads ∧ ∀ use ∈ uses, use.Under pads) ∧
      (∀ key after, (Generator.key seed).run workspace.generator = (.ok key, after) →
        uses.map PadUse.place = List.range circuit.gateCount ×ˢ List.range 4) ∧
      (∀ cause after, (Generator.key seed).run workspace.generator = (.error cause, after) →
        uses = []) := by
  constructor
  · intro pads use other hunder hother hfits hfits' hplace
    refine ⟨fun heq => ?_, fun permuted permuted' hpermuted hpermuted' heq => ?_⟩
    · exact PadUse.block_ne_of_place_ne hunder hother hfits hfits' hplace
        (Halves.toBytes_injective heq)
    · rw [← Halves.toBytes_injective heq] at hpermuted'
      exact PadUse.permuted_ne_of_place_ne hunder hother hfits hfits' hplace hpermuted hpermuted'
  · rcases hkey : (Generator.key seed).run workspace.generator with ⟨cause | key, generator⟩
    · have hrefused := run_prepare_of_key_refused algorithm hvalid hkey
      obtain ⟨hgarble, hdigest⟩ := run_noted_of_refused hrefused []
      have hlength : publicKey.length = algorithm.keyLength := rfl
      obtain ⟨pads, hpads⟩ := algorithm.exists_keyed hlength
      refine ⟨[], ?_, ?_, ⟨List.nodup_nil, List.nodup_nil, [], rfl, List.nodup_nil⟩,
        ⟨pads, hpads, fun use huse => absurd huse List.not_mem_nil⟩, ?_, fun _ _ _ => rfl⟩
      · rw [hgarble, run_garble_of_refused hrefused]
      · rw [hdigest, run_digestOnly_of_refused hrefused]
      · rintro key' after ⟨⟩
    · obtain ⟨cipher, hcipher⟩ := algorithm.exists_cipher key
      have hprepare := run_prepare_of_cipher algorithm hvalid hkey hcipher
      obtain ⟨hsound, _⟩ := sound_of_cipherOfSeed (run_prepare_eq_ok_iff.mp hprepare).2
      obtain ⟨labels, hlabels⟩ := hsound.exists_labels
      refine ⟨cipher.circuitUses labels circuit, run_garbleNoted_of_prepared hprepare hlabels [],
        run_digestOnlyNoted_of_prepared hprepare hlabels [],
        separate_circuitUses hsound.pads hgates,
        ⟨cipher.pads, PrfAlgorithm.keyed_publicKey_of_cipher hcipher,
          fun use huse => GateCipher.under_of_mem_circuitUses huse⟩,
        fun _ _ _ => cipher.map_place_circuitUses labels circuit, ?_⟩
      rintro cause after ⟨⟩

/-- Two gates have eight rows, although the second of them reads one wire twice. -/
theorem rows_never_share_pads_negatedSum :
    Circuit.negatedSum.validate = .ok () ∧ Circuit.negatedSum.gateCount < 2 ^ 64 ∧
    ∃ (uses : List PadUse) (result : Garbling) (after after' : Workspace StreamGenerator),
      (garbleNoted .hmacSha256 .negatedSum (List.replicate 32 7)).run
        (⟨.new .chacha20, .new .sha256⟩, []) = (.ok result, (after, uses)) ∧
      (digestOnlyNoted .hmacSha256 .negatedSum (List.replicate 32 7)).run
        (⟨.new .chacha20, .new .sha256⟩, []) = (.ok result.digest, (after', uses)) ∧
      uses.map PadUse.place =
        [(0, 0), (0, 1), (0, 2), (0, 3), (1, 0), (1, 1), (1, 2), (1, 3)] ∧
      PadUse.Separate uses := by
  let fresh : Workspace StreamGenerator := ⟨.new .chacha20, .new .sha256⟩
  let seed : Bytes := List.replicate 32 7
  have hseed : seed.length = fresh.generator.algorithm.seedLength := List.length_replicate
  have hgates : Circuit.negatedSum.gateCount < 2 ^ 64 := by decide
  obtain ⟨_, uses, hnoted, hbatches, hseparate, _, hplaces, _⟩ :=
    rows_never_share_pads .hmacSha256 Circuit.validate_negatedSum hgates seed fresh
  have hkey := StreamGenerator.run_key_of_length hseed
  obtain ⟨cipher, hprepare⟩ :=
    exists_run_prepare_of_key .hmacSha256 Circuit.validate_negatedSum hkey
  obtain ⟨result, hmade, hgarble⟩ := run_garble_of_prepared hprepare
  obtain ⟨tables, htables, _, hdigest⟩ := hmade.tables
  rw [hgarble] at hnoted
  rw [run_digestOnly_of_prepared hprepare htables, ← hdigest] at hbatches
  exact ⟨Circuit.validate_negatedSum, hgates, uses, result, _, _, hnoted, hbatches,
    hplaces _ _ hkey, hseparate⟩

end Garbling

end SeededGarbling
