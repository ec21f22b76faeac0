import SeededGarbling.Permutation.InPlace
import SeededGarbling.Proofs.RoundEquations

/-!
# The permutation touches its range only

The checks in front of the rounds are such that no access ever falls outside its buffer, that nothing
is written before the last round has answered, and that what is written then is the addressed range.
So words and buffers behave as numbers and byte strings do.
-/

namespace SeededGarbling

open Traversal

namespace Permutation

section Words

variable {offset length : UInt64}

/-- The check of words is that of numbers, whether or not the sum is a word. -/
theorem checkWords_eq (role : BufferRole) (size offset length : UInt64) :
    checkWords role size offset length = checkRange role offset.toNat length.toNat size.toNat := by
  have hsize := size.toNat_lt
  unfold checkWords checkRange checkedAdd
  by_cases hsum : offset.toNat + length.toNat < 2 ^ 64
  · have hstop : (offset + length).toNat = offset.toNat + length.toNat := by
      rw [UInt64.toNat_add, Nat.mod_eq_of_lt hsum]
    simp only [if_pos hsum, UInt64.le_iff_toNat_le, hstop]
  · rw [if_neg hsum, if_neg (by omega)]

/-- Words that add up to less than the largest word add up as numbers do. -/
theorem toNat_add_of_le {a b : UInt64} {size : Nat} (h : a.toNat + b.toNat ≤ size)
    (hsize : size < 2 ^ 64) : (a + b).toNat = a.toNat + b.toNat := by
  rw [UInt64.toNat_add, Nat.mod_eq_of_lt (by omega)]

/-- Words are even as numbers are. -/
theorem mod_two_eq_zero_iff : length % 2 = 0 ↔ length.toNat % 2 = 0 := by
  rw [← UInt64.toNat_inj, UInt64.toNat_mod]
  rfl

/-- Half a word is half a number. -/
theorem toNat_div_two : (length / 2).toNat = length.toNat / 2 := by
  rw [UInt64.toNat_div]
  rfl

end Words

section Accesses

/-- A slice that ends in the buffer is the range it names. -/
theorem slice?_eq {buffer : Buffer} {start stop : UInt64} {offset length : Nat}
    (hstart : start.toNat = offset) (hstop : stop.toNat = offset + length)
    (h : offset + length ≤ buffer.bytes.length) :
    buffer.slice? start stop = some ((buffer.bytes.drop offset).take length) := by
  unfold Buffer.slice?
  rw [if_pos (by omega), hstart, hstop, Nat.add_sub_cancel_left]

/-- A request that passes its checks is cut into the two halves of its range. -/
theorem splitBlock_eq_ok {input : Buffer} {inputOffset outputSize outputOffset length : UInt64}
    (hinput : inputOffset.toNat + length.toNat ≤ input.bytes.length)
    (heven : length.toNat % 2 = 0)
    (h : checkRequest input.size inputOffset outputSize outputOffset length = .ok ()) :
    splitBlock input inputOffset outputSize outputOffset length =
      .ok ((input.range inputOffset length).take (length.toNat / 2),
        (input.range inputOffset length).drop (length.toNat / 2)) := by
  have hfits := input.fits
  have hhalf : (inputOffset + length / 2).toNat = inputOffset.toNat + length.toNat / 2 := by
    rw [← toNat_div_two]
    refine toNat_add_of_le ?_ hfits
    rw [toNat_div_two]
    omega
  have hstop : (inputOffset + length).toNat =
      inputOffset.toNat + length.toNat / 2 + length.toNat / 2 := by
    rw [toNat_add_of_le hinput hfits]
    omega
  have hleft : input.slice? inputOffset (inputOffset + length / 2) =
      some ((input.range inputOffset length).take (length.toNat / 2)) := by
    rw [slice?_eq rfl hhalf (by omega), Buffer.range, List.take_take, Nat.min_eq_left (by omega)]
  have hright : input.slice? (inputOffset + length / 2) (inputOffset + length) =
      some ((input.range inputOffset length).drop (length.toNat / 2)) := by
    rw [slice?_eq hhalf hstop (by omega), Buffer.range, List.drop_take, List.drop_drop]
    congr 2
    omega
  unfold splitBlock
  rw [h, hleft, hright]
  rfl

end Accesses

section Requests

/-- Why a request is refused before any round: the first check that fails decides. -/
inductive Refuses (inputSize inputOffset outputSize outputOffset length : Nat) :
    PermutationError → Prop where
  /-- The range of the input ends behind the input. -/
  | input (h : inputSize < inputOffset + length) :
    Refuses inputSize inputOffset outputSize outputOffset length
      (.outOfRange .input inputOffset length inputSize)
  /-- The range of the output ends behind the output. -/
  | output (hinput : inputOffset + length ≤ inputSize) (h : outputSize < outputOffset + length) :
    Refuses inputSize inputOffset outputSize outputOffset length
      (.outOfRange .output outputOffset length outputSize)
  /-- Both ranges fit, and their length is odd. -/
  | odd (hinput : inputOffset + length ≤ inputSize) (houtput : outputOffset + length ≤ outputSize)
    (h : length % 2 = 1) :
    Refuses inputSize inputOffset outputSize outputOffset length (.oddLength length)

/-- What a request has to be for the rounds to begin. -/
structure Admits (inputSize inputOffset outputSize outputOffset length : Nat) : Prop where
  /-- The range of the input fits. -/
  input : inputOffset + length ≤ inputSize
  /-- So does the range of the output. -/
  output : outputOffset + length ≤ outputSize
  /-- There are halves. -/
  even : length % 2 = 0

/-- What is refused is not admitted. -/
theorem Refuses.not_admits {inputSize inputOffset outputSize outputOffset length : Nat}
    {cause : PermutationError}
    (h : Refuses inputSize inputOffset outputSize outputOffset length cause) :
    ¬ Admits inputSize inputOffset outputSize outputOffset length := by
  rintro ⟨hinput, houtput, heven⟩
  cases h with
  | input h => omega
  | output _ h => omega
  | odd _ _ h => omega

/-- The checks of words are those of numbers, in the same order. -/
theorem checkRequest_cases (inputSize inputOffset outputSize outputOffset length : UInt64) :
    (∃ cause, checkRequest inputSize inputOffset outputSize outputOffset length = .error cause ∧
      Refuses inputSize.toNat inputOffset.toNat outputSize.toNat outputOffset.toNat length.toNat
        cause) ∨
    (checkRequest inputSize inputOffset outputSize outputOffset length = .ok () ∧
      Admits inputSize.toNat inputOffset.toNat outputSize.toNat outputOffset.toNat length.toNat) := by
  unfold checkRequest
  rw [checkWords_eq, checkWords_eq, checkRange, checkRange]
  by_cases hinput : inputOffset.toNat + length.toNat ≤ inputSize.toNat
  · rw [if_pos hinput]
    by_cases houtput : outputOffset.toNat + length.toNat ≤ outputSize.toNat
    · rw [if_pos houtput]
      by_cases heven : length.toNat % 2 = 0
      · rw [if_pos (mod_two_eq_zero_iff.mpr heven)]
        exact .inr ⟨rfl, hinput, houtput, heven⟩
      · rw [if_neg (mt mod_two_eq_zero_iff.mp heven)]
        exact .inl ⟨_, rfl, .odd hinput houtput (by omega)⟩
    · rw [if_neg houtput]
      exact .inl ⟨_, rfl, .output hinput (by omega)⟩
  · rw [if_neg hinput]
    exact .inl ⟨_, rfl, .input (by omega)⟩

end Requests

section Writes

variable {σ : Type} {memory : Memory σ} {bytes left right : Bytes} {offset : Nat}

/-- Two writes side by side are one. -/
theorem splice_splice {buffer : Bytes} (h : offset + (left ++ right).length ≤ buffer.length) :
    splice (splice buffer offset left) (offset + left.length) right =
      splice buffer offset (left ++ right) := by
  rw [List.length_append] at h
  have hbefore : (buffer.take offset ++ left).length = offset + left.length := by
    rw [List.length_append, List.length_take]
    omega
  have hbehind : (buffer.take offset ++ left ++ buffer.drop (offset + left.length)).drop
      (offset + left.length + right.length) = buffer.drop (offset + (left ++ right).length) := by
    rw [← hbefore, List.drop_append, hbefore, List.drop_of_length_le (by omega), List.nil_append,
      List.drop_drop, List.length_append]
    congr 1
    omega
  unfold splice
  rw [hbehind, List.take_left' hbefore, List.append_assoc (buffer.take offset) left right]

/-- Bytes are written where they fit. -/
theorem run_write {start stop : UInt64} (hstart : start.toNat = offset)
    (hstop : offset + bytes.length = stop.toNat)
    (h : offset + bytes.length ≤ memory.output.bytes.length) :
    (write start stop bytes).run memory =
      (.ok (), { memory with output := memory.output.overwrite offset bytes h }) := by
  subst hstart
  have hwritten : memory.output.overwrite? start stop bytes =
      some (memory.output.overwrite start.toNat bytes h) := by
    unfold Buffer.overwrite?
    rw [dif_pos ⟨hstop ▸ h, hstop⟩]
  have hget : (get : ExceptT Fault (StateM (Memory σ)) (Memory σ)).run memory =
      (.ok memory, memory) := rfl
  unfold write
  rw [run_bind_of_ok hget, hwritten]
  rfl

/-- Halves of one length are written as the block that they are. -/
theorem run_joinBlock {outputOffset : UInt64} (hsame : right.length = left.length)
    (h : outputOffset.toNat + (left ++ right).length ≤ memory.output.bytes.length) :
    (joinBlock outputOffset left right).run memory =
      (.ok (), { memory with
        output := memory.output.overwrite outputOffset.toNat (left ++ right) h }) := by
  have hfits := memory.output.fits
  have hlength := h
  rw [List.length_append] at hlength
  have hhalf : (UInt64.ofNat left.length).toNat = left.length :=
    UInt64.toNat_ofNat_of_lt' (by change _ < 2 ^ 64; omega)
  have hmiddle : (outputOffset + UInt64.ofNat left.length).toNat =
      outputOffset.toNat + left.length := by
    rw [toNat_add_of_le (Nat.le_refl _) (by omega), hhalf]
  have hstop : (outputOffset + 2 * UInt64.ofNat left.length).toNat =
      outputOffset.toNat + left.length + right.length := by
    have htwice : (2 * UInt64.ofNat left.length).toNat = left.length + right.length := by
      rw [UInt64.toNat_mul, hhalf, Nat.mod_eq_of_lt]
      · change 2 * left.length = _
        omega
      · change 2 * left.length < _
        omega
    rw [toNat_add_of_le (Nat.le_refl _) (by omega), htwice, Nat.add_assoc]
  unfold joinBlock
  have hfirst : (write outputOffset (outputOffset + UInt64.ofNat left.length) left).run memory =
      (.ok (), { memory with
        output := memory.output.overwrite outputOffset.toNat left (by omega) }) :=
    run_write rfl hmiddle.symm (by omega)
  rw [run_bind_of_ok hfirst]
  have hrest : outputOffset.toNat + left.length + right.length ≤
      (memory.output.overwrite outputOffset.toNat left (by omega)).bytes.length := by
    rw [Buffer.overwrite, length_splice (by omega)]
    omega
  rw [run_write hmiddle hstop.symm hrest]
  simp only [Buffer.overwrite, splice_splice h]

end Writes

section Passes

variable {σ : Type} {g : RoundFunction (StateM σ)} {direction : Direction}

/-- Buffers that have gone through a pass hold two halves of the length of a half. -/
theorem length_of_run_pass {n : Nat} {block : Halves n} {scratch : Vector UInt8 n} {pad : Scratchpad}
    {s s' : σ}
    (h : (Scratchpad.pass g direction (.holding block scratch)).run s = (.ok pad, s')) :
    pad.left.length = n ∧ pad.right.length = n := by
  have hhalves := congrArg (fun x => (x.run s).1) (Scratchpad.halves_pass g direction block scratch)
  simp only [run_map, h] at hhalves
  cases hlast : ((block.pass g direction).run s).1 with
  | error cause =>
    rw [hlast] at hhalves
    cases hhalves
  | ok last =>
    rw [hlast] at hhalves
    obtain ⟨hleft, hright⟩ := Prod.mk.inj (Except.ok.inj hhalves)
    rw [hleft, hright]
    exact ⟨last.left.length_toList, last.right.length_toList⟩

/-- A pass on buffers fails with the first question that fails, or leaves the two halves of what the
block is taken to. -/
theorem run_pass_cases (g : RoundFunction (StateM σ)) (direction : Direction) {block : Bytes}
    (heven : block.length % 2 = 0) (s : σ) :
    (∃ cause s', (Scratchpad.pass g direction (.ofBlock block)).run s = (.error cause, s') ∧
      (passBlock g direction block).run s = (.error (.roundFunction cause), s')) ∨
    ∃ pad s', (Scratchpad.pass g direction (.ofBlock block)).run s = (.ok pad, s') ∧
      (passBlock g direction block).run s = (.ok (pad.left ++ pad.right), s') ∧
      pad.right.length = pad.left.length ∧ (pad.left ++ pad.right).length = block.length := by
  have hlength : block.length = 2 * (block.length / 2) := by omega
  have hpad : Scratchpad.ofBlock block =
      .holding (Halves.ofBytes block hlength) (Vector.replicate _ 0) := by
    rw [← Scratchpad.ofBlock_toBytes, Halves.toBytes_ofBytes]
  have hblock : (passBlock g direction block).run s =
      (ExceptT.adapt PermutationError.roundFunction (do
        let pad ← Scratchpad.pass g direction (.ofBlock block)
        return pad.left ++ pad.right)).run s := by
    rw [← Scratchpad.passBlock_eq, Scratchpad.passBlock, if_pos heven]
  rw [hblock, run_adapt]
  rcases hrun : (Scratchpad.pass g direction (.ofBlock block)).run s with ⟨cause | pad, s'⟩
  · rw [run_bind_of_error hrun]
    exact .inl ⟨cause, s', rfl, rfl⟩
  · rw [run_bind_of_ok hrun]
    rw [hpad] at hrun
    obtain ⟨hleft, hright⟩ := length_of_run_pass hrun
    refine .inr ⟨pad, s', rfl, rfl, by rw [hleft, hright], ?_⟩
    rw [List.length_append, hleft, hright]
    omega

end Passes

section Outcomes

variable {σ : Type} {g : RoundFunction (StateM σ)} {direction : Direction} {input output : Buffer}
  {inputOffset outputOffset length : UInt64} {s : σ}

/-- What a request leaves: its outcome, the buffer that is written, and the state of the round
function. -/
inductive Leaves (g : RoundFunction (StateM σ)) (direction : Direction) (input output : Buffer)
    (inputOffset outputOffset length : UInt64) (s : σ) : Except Fault Unit → Buffer → σ → Prop where
  /-- A request that is refused changes nothing. -/
  | refused {cause : PermutationError} (h : Refuses input.bytes.length inputOffset.toNat
      output.bytes.length outputOffset.toNat length.toNat cause) :
    Leaves g direction input output inputOffset outputOffset length s
      (.error (.refused cause)) output s
  /-- A question that fails stops the rounds, and the buffer is as before. -/
  | stopped {cause : PrimitiveError} {s' : σ} (hadmits : Admits input.bytes.length inputOffset.toNat
      output.bytes.length outputOffset.toNat length.toNat)
    (h : (passBlock g direction (input.range inputOffset length)).run s =
      (.error (.roundFunction cause), s')) :
    Leaves g direction input output inputOffset outputOffset length s
      (.error (.refused (.roundFunction cause))) output s'
  /-- Otherwise the range holds what the range of the input is taken to, and no other byte changes. -/
  | written {block : Bytes} {after : Buffer} {s' : σ} (hadmits : Admits input.bytes.length
      inputOffset.toNat output.bytes.length outputOffset.toNat length.toNat)
    (h : (passBlock g direction (input.range inputOffset length)).run s = (.ok block, s'))
    (hsize : after.bytes.length = output.bytes.length)
    (hrange : after.range outputOffset length = block)
    (hframe : ∀ i, i < outputOffset.toNat ∨ outputOffset.toNat + length.toNat ≤ i →
      after.bytes[i]? = output.bytes[i]?) :
    Leaves g direction input output inputOffset outputOffset length s (.ok ()) after s'

/-- Bytes before and behind what is written stay. -/
theorem getElem?_splice {buffer bytes : Bytes} {offset i : Nat}
    (h : offset + bytes.length ≤ buffer.length) (hi : i < offset ∨ offset + bytes.length ≤ i) :
    (splice buffer offset bytes)[i]? = buffer[i]? := by
  have hbefore : (buffer.take offset).length = offset := by
    rw [List.length_take]
    omega
  unfold splice
  rcases hi with hi | hi
  · rw [List.append_assoc, List.getElem?_append_left (by omega), List.getElem?_take_of_lt hi]
  · rw [List.getElem?_append_right (by rw [List.length_append]; omega), List.getElem?_drop,
      List.length_append, hbefore, Nat.add_sub_cancel' hi]

/-- The check of a range that fits is passed. -/
theorem run_checkRange {role : BufferRole} {offset length size : Nat} (h : offset + length ≤ size)
    (s : σ) :
    (MonadExcept.ofExcept (checkRange role offset length size) :
      ExceptT PermutationError (StateM σ) Unit).run s = (.ok (), s) := by
  rw [run_ofExcept, checkRange_eq_ok_iff.mpr h]

/-- A request that is refused is refused on numbers and byte strings too, for the same cause. -/
theorem run_passRange_of_refuses {cause : PermutationError} {input output : Bytes}
    {inputOffset outputOffset length : Nat}
    (h : Refuses input.length inputOffset output.length outputOffset length cause) (s : σ) :
    (passRange g direction input inputOffset output outputOffset length).run s =
      (.error cause, s) := by
  unfold passRange
  cases h with
  | input h =>
    refine run_bind_of_error ?_
    rw [run_ofExcept, checkRange, if_neg (by omega)]
  | output hinput h =>
    rw [run_bind_of_ok (run_checkRange hinput s)]
    refine run_bind_of_error ?_
    rw [run_ofExcept, checkRange, if_neg (by omega)]
  | odd hinput houtput h =>
    rw [run_bind_of_ok (run_checkRange hinput s), run_bind_of_ok (run_checkRange houtput s)]
    refine run_bind_of_error ?_
    rw [passBlock, dif_neg (by rw [length_take_drop hinput]; omega), length_take_drop hinput]
    rfl

/-- A block that is stopped stops its request. -/
theorem run_passRange_of_stopped {cause : PermutationError} {input output : Bytes}
    {inputOffset outputOffset length : Nat} {s' : σ}
    (hadmits : Admits input.length inputOffset output.length outputOffset length)
    (h : (passBlock g direction ((input.drop inputOffset).take length)).run s =
      (.error cause, s')) :
    (passRange g direction input inputOffset output outputOffset length).run s =
      (.error cause, s') := by
  unfold passRange
  rw [run_bind_of_ok (run_checkRange hadmits.input s),
    run_bind_of_ok (run_checkRange hadmits.output s)]
  exact run_bind_of_error h

/-- On buffers a request is cut first, goes through the rounds and is put together last. -/
theorem run_passInPlace_eq :
    (passInPlace g direction input inputOffset outputOffset length).run ⟨output, s⟩ =
      ((MonadExcept.ofExcept (splitBlock input inputOffset output.size outputOffset length) :
        ExceptT Fault (StateM (Memory σ)) (Bytes × Bytes)) >>= fun halves =>
      onRounds (Scratchpad.pass g direction
        ⟨halves.1, halves.2, List.replicate halves.1.length 0⟩) >>= fun pad =>
      joinBlock outputOffset pad.left pad.right).run ⟨output, s⟩ := rfl

/-- A request that fails its checks goes nowhere. -/
theorem run_passInPlace_of_error {cause : PermutationError}
    (h : checkRequest input.size inputOffset output.size outputOffset length = .error cause) :
    (passInPlace g direction input inputOffset outputOffset length).run ⟨output, s⟩ =
      (.error (.refused cause), ⟨output, s⟩) := by
  rw [run_passInPlace_eq]
  refine run_bind_of_error ?_
  rw [run_ofExcept, splitBlock, h]
  rfl

/-- A request that passes them goes on with its block in the buffers of the rounds. -/
theorem run_passInPlace_of_ok
    (h : checkRequest input.size inputOffset output.size outputOffset length = .ok ())
    (hadmits : Admits input.bytes.length inputOffset.toNat output.bytes.length outputOffset.toNat
      length.toNat) :
    (passInPlace g direction input inputOffset outputOffset length).run ⟨output, s⟩ =
      (onRounds (Scratchpad.pass g direction (.ofBlock (input.range inputOffset length))) >>=
        fun pad => joinBlock outputOffset pad.left pad.right).run ⟨output, s⟩ := by
  have hlength : (input.range inputOffset length).length = length.toNat :=
    length_take_drop hadmits.input
  have hleft : ((input.range inputOffset length).take (length.toNat / 2)).length =
      length.toNat / 2 := by
    rw [List.length_take]
    omega
  rw [run_passInPlace_eq, splitBlock_eq_ok hadmits.input hadmits.even h,
    run_bind_of_ok (run_ofExcept _ _)]
  simp only [Scratchpad.ofBlock, hlength, hleft]

/-- The rounds act on the state of the round function alone. -/
theorem run_onRounds {α : Type} {x : ExceptT PrimitiveError (StateM σ) α}
    {outcome : Except PrimitiveError α} {s' : σ} (h : x.run s = (outcome, s')) :
    (onRounds x).run ⟨output, s⟩ =
      (outcome.mapError fun cause => .refused (.roundFunction cause), ⟨output, s'⟩) := by
  change ((x.run s).1.mapError _, (⟨output, (x.run s).2⟩ : Memory σ)) = _
  rw [h]

/-- A request leaves one of three things, and what it does on buffers is what it does on byte strings:
the outcome and the state are the same, and the buffer that is written holds the byte string that is
given back, if one is. -/
theorem exists_run_passInPlace (g : RoundFunction (StateM σ)) (direction : Direction)
    (input output : Buffer) (inputOffset outputOffset length : UInt64) (s : σ) :
    ∃ (outcome : Except Fault Unit) (after : Buffer) (s' : σ)
      (result : Except PermutationError Bytes),
      (passInPlace g direction input inputOffset outputOffset length).run ⟨output, s⟩ =
        (outcome, ⟨after, s'⟩) ∧
      Leaves g direction input output inputOffset outputOffset length s outcome after s' ∧
      (passRange g direction input.bytes inputOffset.toNat output.bytes outputOffset.toNat
        length.toNat).run s = (result, s') ∧
      outcome = (result.map fun _ => ()).mapError .refused ∧
      after.bytes = result.toOption.getD output.bytes := by
  have hcases := checkRequest_cases input.size inputOffset output.size outputOffset length
  rw [Buffer.toNat_size, Buffer.toNat_size] at hcases
  rcases hcases with ⟨cause, hcheck, hrefuses⟩ | ⟨hcheck, hadmits⟩
  · exact ⟨_, output, s, .error cause, run_passInPlace_of_error hcheck, .refused hrefuses,
      run_passRange_of_refuses hrefuses s, rfl, rfl⟩
  · have hlength : (input.range inputOffset length).length = length.toNat :=
      length_take_drop hadmits.input
    rw [run_passInPlace_of_ok hcheck hadmits]
    rcases run_pass_cases g direction (hlength ▸ hadmits.even) s with
      ⟨cause, s', hpass, hblock⟩ | ⟨pad, s', hpass, hblock, hsame, htotal⟩
    · exact ⟨_, output, s', .error (.roundFunction cause), run_bind_of_error (run_onRounds hpass),
        .stopped hadmits hblock, run_passRange_of_stopped hadmits hblock, rfl, rfl⟩
    · rw [hlength] at htotal
      have hfits : outputOffset.toNat + (pad.left ++ pad.right).length ≤ output.bytes.length :=
        htotal ▸ hadmits.output
      refine ⟨.ok (), output.overwrite outputOffset.toNat (pad.left ++ pad.right) hfits, s',
        .ok (splice output.bytes outputOffset.toNat (pad.left ++ pad.right)), ?_,
        .written hadmits hblock (length_splice hfits) ?_ ?_, ?_, rfl, rfl⟩
      · rw [run_bind_of_ok (run_onRounds hpass)]
        exact run_joinBlock hsame hfits
      · have hread := take_drop_splice hfits
        rw [htotal] at hread
        exact hread
      · intro i hi
        refine getElem?_splice hfits ?_
        rw [htotal]
        exact hi
      · exact run_passRange_eq_ok_iff.mpr ⟨hadmits.input, hadmits.output, _, hblock, rfl⟩

/-- The whole of a buffer is a range of it. -/
theorem range_size (block : Buffer) : block.range 0 block.size = block.bytes := by
  rw [Buffer.range, Buffer.toNat_size]
  exact List.take_length

/-- A whole buffer is taken where its bytes are. -/
theorem run_passWhole (g : RoundFunction (StateM σ)) (direction : Direction) (block : Buffer) (s : σ) :
    (passWhole g direction block).run s =
      (((passBlock g direction block.bytes).run s).1.mapError .refused,
        ((passBlock g direction block.bytes).run s).2) := by
  obtain ⟨outcome, after, s', result, hrun, hleaves, -⟩ :=
    exists_run_passInPlace g direction block block.zeros 0 0 block.size s
  have hwhole : (passWhole g direction block).run s = (outcome.map fun _ => after.bytes, s') := by
    unfold passWhole
    change (Except.map (fun _ => ((passInPlace g direction block 0 0 block.size).run
        ⟨block.zeros, s⟩).2.output.bytes) _,
      ((passInPlace g direction block 0 0 block.size).run ⟨block.zeros, s⟩).2.inner) = _
    rw [hrun]
  have hzeros : block.zeros.bytes.length = block.bytes.length := List.length_replicate
  have hzero : (0 : UInt64).toNat = 0 := rfl
  rw [hwhole]
  cases hleaves with
  | refused h =>
    rw [hzero, Buffer.toNat_size, hzeros] at h
    cases h with
    | input h => omega
    | output _ h => omega
    | odd _ _ h =>
      rw [passBlock, dif_neg (by omega)]
      rfl
  | stopped hadmits h =>
    rw [range_size] at h
    rw [h]
    rfl
  | written hadmits h hsize hrange hframe =>
    have hafter : after.size = block.size := by
      rw [Buffer.size, hsize, hzeros, Buffer.size]
    rw [← hafter, range_size] at hrange
    rw [range_size] at h
    rw [h, hrange]
    rfl

end Outcomes

section BuiltIn

variable {σ : Type} {algorithm : PrfAlgorithm} {key : Bytes} {f : KeyedFunction}

/-- A keyed function as a round function: it leaves the state alone. -/
def stateless (f : KeyedFunction) : RoundFunction (StateM σ) :=
  fun input n => MonadExcept.ofExcept (f input n)

/-- The only answer that a key withholds is one of more than 255 blocks of key derivation. -/
theorem keyed_eq_error_iff (h : algorithm.keyed key = .ok f) {input : Bytes} {n : Nat}
    {cause : PrimitiveError} :
    f input n = .error cause ↔
      algorithm = .hmacSha256 ∧ 8160 < n ∧ cause = .outputTooLong n 8160 := by
  unfold PrfAlgorithm.keyed at h
  split at h
  · cases algorithm with
    | blake3 =>
      cases h
      constructor
      · intro hcause
        cases hcause
      · rintro ⟨hwrong, -⟩
        cases hwrong
    | hmacSha256 =>
      cases h
      change (if 8160 < n then Except.error (PrimitiveError.outputTooLong n 8160) else _) = _ ↔ _
      split_ifs with hn
      · simp [hn, eq_comm]
      · simp [hn]
  · cases h

/-- A block under a key is stopped exactly if its halves are longer than the key gives. -/
theorem run_passBlock_stateless_eq_error_iff (h : algorithm.keyed key = .ok f) (direction : Direction)
    {block : Bytes} (heven : block.length % 2 = 0) (s : σ) (cause : PrimitiveError) :
    ((passBlock (stateless f) direction block).run s).1 = .error (.roundFunction cause) ↔
      algorithm = .hmacSha256 ∧ 8160 < block.length / 2 ∧
        cause = .outputTooLong (block.length / 2) 8160 := by
  have hlength : block.length = 2 * (block.length / 2) := by omega
  have hanswer : ∀ {input n s s'} {answer : Except PrimitiveError (Vector UInt8 n)},
      (stateless f input n).run (s : σ) = (answer, s') → f input n = answer := by
    intro input n s s' answer hrun
    rw [stateless, run_ofExcept] at hrun
    exact congrArg Prod.fst hrun
  obtain ⟨row, states, asked, outcome, after, -, -, hruns, hrun, -⟩ := Halves.exists_runs
    (stateless f) direction.numbers (Halves.facing direction (Halves.ofBytes block hlength)) s #[]
  have hblock := run_passBlock_of_rounds _ hrun
  change (passBlock (stateless f) direction (Halves.ofBytes block hlength).toBytes).run s = _
    at hblock
  rw [Halves.toBytes_ofBytes] at hblock
  rw [hblock]
  cases hruns with
  | done hrounds =>
    -- The first question was answered, so the halves are no longer than that.
    have hfirst : ∃ number, direction.numbers[0]? = some number := by
      cases direction <;> exact ⟨_, rfl⟩
    obtain ⟨number, hnumber⟩ := hfirst
    obtain ⟨mask, hmask, -⟩ := hrounds 0 number hnumber
    constructor
    · intro hok
      cases hok
    · intro hlong
      have hok := hanswer hmask
      rw [(keyed_eq_error_iff h).mpr hlong] at hok
      cases hok
  | failed _ _ hfails =>
    obtain ⟨halgorithm, hlong, rfl⟩ := (keyed_eq_error_iff h).mp (hanswer hfails)
    constructor
    · intro hcause
      cases hcause
      exact ⟨halgorithm, hlong, rfl⟩
    · rintro ⟨-, -, rfl⟩
      rfl

/-- A request under a key is stopped by its rounds exactly if it is admitted and its halves are longer
than the key gives. -/
theorem run_passInPlace_stateless_eq_error_iff (h : algorithm.keyed key = .ok f)
    (direction : Direction) (input output : Buffer) (inputOffset outputOffset length : UInt64) (s : σ)
    (cause : PrimitiveError) :
    ((passInPlace (stateless f) direction input inputOffset outputOffset length).run
        ⟨output, s⟩).1 = .error (.refused (.roundFunction cause)) ↔
      Admits input.bytes.length inputOffset.toNat output.bytes.length outputOffset.toNat
        length.toNat ∧
      algorithm = .hmacSha256 ∧ 8160 < length.toNat / 2 ∧
        cause = .outputTooLong (length.toNat / 2) 8160 := by
  obtain ⟨outcome, after, s', result, hrun, hleaves, -⟩ :=
    exists_run_passInPlace (stateless f) direction input output inputOffset outputOffset length s
  have hblock : Admits input.bytes.length inputOffset.toNat output.bytes.length outputOffset.toNat
      length.toNat →
      (((passBlock (stateless f) direction (input.range inputOffset length)).run s).1 =
          .error (.roundFunction cause) ↔
        algorithm = .hmacSha256 ∧ 8160 < length.toNat / 2 ∧
          cause = .outputTooLong (length.toNat / 2) 8160) := by
    intro hadmits
    have hlength : (input.range inputOffset length).length = length.toNat :=
      length_take_drop hadmits.input
    have hiff := run_passBlock_stateless_eq_error_iff h direction (hlength ▸ hadmits.even) s cause
    rwa [hlength] at hiff
  rw [hrun]
  cases hleaves with
  | refused hrefuses =>
    constructor
    · intro hcause
      cases hcause
      cases hrefuses
    · rintro ⟨hadmits, -⟩
      exact absurd hadmits hrefuses.not_admits
  | stopped hadmits hstopped =>
    have hiff := hblock hadmits
    rw [hstopped] at hiff
    constructor
    · intro hcause
      cases hcause
      exact ⟨hadmits, hiff.mp rfl⟩
    · rintro ⟨-, hlong⟩
      cases hiff.mpr hlong
      rfl
  | written hadmits hwritten =>
    have hiff := hblock hadmits
    rw [hwritten] at hiff
    constructor
    · intro hcause
      cases hcause
    · rintro ⟨-, hlong⟩
      cases hiff.mpr hlong

end BuiltIn

/-- A request is refused for the range of the input first, then for the range of the output, then for
an odd length; otherwise it is stopped by the first question that fails, or else it writes. It never
reaches outside a buffer, it writes nothing unless it succeeds and then the addressed range alone, and
it does what is done on numbers and byte strings. What stops it under a key can only be key
derivation, and is so exactly for halves of more than 255 blocks. -/
theorem passInPlace_leaves_rest :
    (∀ (σ : Type) (g : RoundFunction (StateM σ)) (direction : Direction) (input output : Buffer)
      (inputOffset outputOffset length : UInt64) (s : σ),
      ∃ (outcome : Except Fault Unit) (after : Buffer) (s' : σ)
        (result : Except PermutationError Bytes),
        (passInPlace g direction input inputOffset outputOffset length).run ⟨output, s⟩ =
          (outcome, ⟨after, s'⟩) ∧
        Leaves g direction input output inputOffset outputOffset length s outcome after s' ∧
        (passRange g direction input.bytes inputOffset.toNat output.bytes outputOffset.toNat
          length.toNat).run s = (result, s') ∧
        outcome = (result.map fun _ => ()).mapError .refused ∧
        after.bytes = result.toOption.getD output.bytes) ∧
    (∀ (σ : Type) (g : RoundFunction (StateM σ)) (direction : Direction) (block : Buffer) (s : σ),
      (passWhole g direction block).run s =
        (((passBlock g direction block.bytes).run s).1.mapError .refused,
          ((passBlock g direction block.bytes).run s).2)) ∧
    ∀ (algorithm : PrfAlgorithm) (key : Vector UInt8 32), ∃ f,
      algorithm.keyed key.toList = .ok f ∧
      ∀ (σ : Type) (direction : Direction) (input output : Buffer)
        (inputOffset outputOffset length : UInt64) (s : σ) (cause : PrimitiveError),
        ((passInPlace (stateless f) direction input inputOffset outputOffset length).run
            ⟨output, s⟩).1 = .error (.refused (.roundFunction cause)) ↔
          Admits input.bytes.length inputOffset.toNat output.bytes.length outputOffset.toNat
            length.toNat ∧
          algorithm = .hmacSha256 ∧ 8160 < length.toNat / 2 ∧
            cause = .outputTooLong (length.toNat / 2) 8160 := by
  refine ⟨fun _ g direction => exists_run_passInPlace g direction,
    fun _ g direction => run_passWhole g direction, ?_⟩
  intro algorithm key
  obtain ⟨f, hf⟩ := algorithm.exists_keyed key.length_toList
  exact ⟨f, hf, fun _ direction => run_passInPlace_stateless_eq_error_iff hf direction⟩

end Permutation

end SeededGarbling
