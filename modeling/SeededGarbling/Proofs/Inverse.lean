import Mathlib.Logic.Equiv.Defs
import Mathlib.Tactic.Choose
import SeededGarbling.Permutation.Buffer
import SeededGarbling.Permutation.Recorded
import SeededGarbling.Proofs.Cipher

/-!
# The inverse undoes the permutation

A round asks its function about the half that it keeps, so whoever undoes the round can ask the same
question and is given the same mask. Hence the rounds are connected in both directions by one list of
questions: the permutation follows it forwards and the inverse backwards, and one of them succeeds
exactly where the other does.
-/

namespace SeededGarbling

open Traversal

/-- The other direction. -/
def Direction.opposite : Direction → Direction
  | forward => inverse
  | inverse => forward

namespace Halves

variable {n : Nat}

/-- The halves in exchanged places. -/
def swap (block : Halves n) : Halves n :=
  ⟨block.right, block.left⟩

@[simp] theorem swap_swap (block : Halves n) : block.swap.swap = block := rfl

section Exchange

variable {m : Type → Type} [Monad m] [LawfulMonad m]

/-- To undo a round is to make it on exchanged halves. -/
theorem invertRound_eq_map_swap (f : RoundFunction m) (block : Halves n) (number : UInt8) :
    invertRound f block number = swap <$> permuteRound f block.swap number := by
  simp only [invertRound, permuteRound, map_bind, map_pure]
  rfl

/-- So it is for any number of rounds. -/
theorem foldlM_invertRound (f : RoundFunction m) (numbers : List UInt8) (block : Halves n) :
    numbers.foldlM (invertRound f) block =
      swap <$> numbers.foldlM (permuteRound f) block.swap := by
  induction numbers generalizing block with
  | nil => simp only [List.foldlM_nil, map_pure, swap_swap]
  | cons number numbers ih =>
    simp only [List.foldlM_cons, invertRound_eq_map_swap, bind_map_left, map_bind, ih, swap_swap]

end Exchange

/-- The rounds with the given numbers take one block to another, and ask the given questions. -/
inductive Trace (f : KeyedFunction) :
    List UInt8 → Halves n → Halves n → List RoundCall → Prop where
  /-- Without rounds nothing changes and nothing is asked. -/
  | nil (block : Halves n) : Trace f [] block block []
  /-- A round asks about the right half, and the answer masks the left one. -/
  | cons {number : UInt8} {numbers : List UInt8} {block last : Halves n} {mask : Vector UInt8 n}
    {asked : List RoundCall} (hmask : f (block.right.toList ++ [number]) n = .ok mask)
    (hrest : Trace f numbers ⟨block.right, xorVector block.left mask⟩ last asked) :
    Trace f (number :: numbers) block last (⟨block.right.toList ++ [number], n⟩ :: asked)

namespace Trace

variable {f : KeyedFunction} {numbers others : List UInt8} {block last end' : Halves n}
  {asked more : List RoundCall}

/-- There is one question for each round. -/
theorem length_asked (h : Trace f numbers block last asked) : asked.length = numbers.length := by
  induction h with
  | nil => rfl
  | cons _ _ ih => rw [List.length_cons, List.length_cons, ih]

/-- Rounds are put together. -/
theorem append (h : Trace f numbers block last asked) (h' : Trace f others last end' more) :
    Trace f (numbers ++ others) block end' (asked ++ more) := by
  induction h with
  | nil => exact h'
  | cons hmask _ ih => exact .cons hmask (ih h')

/-- On exchanged halves the same questions, asked backwards, lead back: the mask of a round cancels
itself. -/
theorem reverse (h : Trace f numbers block last asked) :
    Trace f numbers.reverse last.swap block.swap asked.reverse := by
  induction h with
  | nil block => exact .nil block.swap
  | @cons number numbers block last mask asked hmask _ ih =>
    -- The first round is undone last, so it goes to the end of the reversed trace.
    have hround : Trace f [number] (⟨xorVector block.left mask, block.right⟩ : Halves n) block.swap
        [⟨block.right.toList ++ [number], n⟩] := by
      have hback : (⟨block.right, xorVector (xorVector block.left mask) mask⟩ : Halves n) =
          block.swap := by
        rw [xorVector_xorVector_cancel]
        rfl
      refine .cons hmask ?_
      rw [hback]
      exact .nil block.swap
    rw [List.reverse_cons, List.reverse_cons]
    exact ih.append hround

end Trace

/-- A function that answers everything takes every block through any rounds. -/
theorem exists_trace {f : KeyedFunction} (h : Answers f n) (numbers : List UInt8)
    (block : Halves n) : ∃ last asked, Trace f numbers block last asked := by
  induction numbers generalizing block with
  | nil => exact ⟨block, [], .nil block⟩
  | cons number numbers ih =>
    obtain ⟨mask, hmask⟩ := h (block.right.toList ++ [number])
    obtain ⟨last, asked, hrest⟩ := ih ⟨block.right, xorVector block.left mask⟩
    exact ⟨last, _, .cons hmask hrest⟩

/-- Where a block is taken in a direction: the inverse works on exchanged halves, from the last round
to the first. -/
def Leads (f : KeyedFunction) : Direction → Halves n → Halves n → List RoundCall → Prop
  | .forward, block, last, asked => Trace f roundNumbers block last asked
  | .inverse, block, last, asked => Trace f roundNumbers.reverse block.swap last.swap asked

namespace Leads

variable {f : KeyedFunction} {direction : Direction} {block last : Halves n}
  {asked : List RoundCall}

/-- What leads somewhere leads back in the other direction, with the questions reversed. -/
theorem back (h : Leads f direction block last asked) :
    Leads f direction.opposite last block asked.reverse := by
  cases direction with
  | forward => exact h.reverse
  | inverse => exact h.reverse

/-- Four questions are asked. -/
theorem length_asked (h : Leads f direction block last asked) : asked.length = 4 := by
  cases direction with
  | forward => exact Trace.length_asked h
  | inverse => exact Trace.length_asked h

end Leads

/-- A function that answers everything leads every block somewhere, in both directions. -/
theorem exists_leads {f : KeyedFunction} (h : Answers f n) (direction : Direction)
    (block : Halves n) : ∃ last asked, Leads f direction block last asked := by
  cases direction with
  | forward => exact exists_trace h roundNumbers block
  | inverse =>
    obtain ⟨last, asked, htrace⟩ := exists_trace h roundNumbers.reverse block.swap
    exact ⟨last.swap, asked, htrace⟩

section Observation

variable {f : KeyedFunction} {numbers : List UInt8} {block last : Halves n}
  {calls after : Array RoundCall} {direction : Direction}

/-- A round asks one question, and its outcome is that of the answer. -/
theorem run_permuteRound_recorded (f : KeyedFunction) (block : Halves n) (number : UInt8)
    (calls : Array RoundCall) :
    (permuteRound (RoundFunction.recorded f none) block number).run calls =
      ((f (block.right.toList ++ [number]) n).map fun mask =>
        (⟨block.right, xorVector block.left mask⟩ : Halves n),
        calls.push ⟨block.right.toList ++ [number], n⟩) := by
  have hanswer : (RoundFunction.recorded f none (block.right.toList ++ [number]) n).run calls =
      (f (block.right.toList ++ [number]) n, calls.push ⟨block.right.toList ++ [number], n⟩) := by
    cases h : f (block.right.toList ++ [number]) n with
    | error e =>
      unfold RoundFunction.recorded
      rw [h]
      rfl
    | ok mask =>
      unfold RoundFunction.recorded
      rw [h]
      rfl
  unfold permuteRound
  cases h : f (block.right.toList ++ [number]) n with
  | error e =>
    rw [h] at hanswer
    exact run_bind_of_error hanswer
  | ok mask =>
    rw [h] at hanswer
    exact run_bind_of_ok hanswer

/-- Rounds that are watched succeed exactly along a trace, whose questions are noted down. -/
theorem run_permuteRounds_eq_ok_iff :
    (numbers.foldlM (permuteRound (RoundFunction.recorded f none)) block).run calls =
        (.ok last, after) ↔
      ∃ asked, Trace f numbers block last asked ∧ after = calls ++ asked := by
  induction numbers generalizing block calls with
  | nil =>
    constructor
    · intro h
      cases h
      exact ⟨[], .nil last, by simp⟩
    · rintro ⟨asked, htrace, rfl⟩
      cases htrace
      have hnone : calls ++ ([] : List RoundCall) = calls := by simp
      rw [hnone]
      rfl
  | cons number numbers ih =>
    rw [List.foldlM_cons]
    have hround := run_permuteRound_recorded f block number calls
    constructor
    · intro h
      obtain ⟨next, noted, hnext, hrest⟩ := run_bind_eq_ok h
      rw [hround] at hnext
      cases hmask : f (block.right.toList ++ [number]) n with
      | error e =>
        rw [hmask] at hnext
        cases hnext
      | ok mask =>
        rw [hmask] at hnext
        cases hnext
        obtain ⟨asked, htrace, rfl⟩ := ih.mp hrest
        exact ⟨_, .cons hmask htrace, by simp⟩
    · rintro ⟨asked, htrace, rfl⟩
      cases htrace with
      | cons hmask hrest =>
        rw [hmask] at hround
        rw [run_bind_of_ok hround]
        apply ih.mpr
        exact ⟨_, hrest, by simp⟩

/-- Unwatched rounds follow the same trace. -/
theorem run_permuteRounds_of_trace {asked : List RoundCall}
    (h : Trace f numbers block last asked) :
    (numbers.foldlM (permuteRound (m := Id) f) block).run = .ok last := by
  induction h with
  | nil => rfl
  | cons hmask _ ih =>
    change ExceptT.bindCont (m := Id) _ (permuteRound (m := Id) f _ _).run = _
    rw [permuteRound_eq_ok hmask]
    exact ih

/-- A pass that is watched succeeds exactly where the block is led in its direction. -/
theorem run_pass_eq_ok_iff :
    (pass (RoundFunction.recorded f none) direction block).run calls = (.ok last, after) ↔
      ∃ asked, Leads f direction block last asked ∧ after = calls ++ asked := by
  cases direction with
  | forward => exact run_permuteRounds_eq_ok_iff
  | inverse =>
    change (invert (RoundFunction.recorded f none) block).run calls = _ ↔
      ∃ asked, Trace f roundNumbers.reverse block.swap last.swap asked ∧ after = calls ++ asked
    rw [← run_permuteRounds_eq_ok_iff, invert, foldlM_invertRound]
    rcases hrun : (roundNumbers.reverse.foldlM (permuteRound (RoundFunction.recorded f none))
      block.swap).run calls with ⟨_ | found, noted⟩
    · rw [map_eq_pure_bind, run_bind_of_error hrun]
      constructor
      · intro h
        cases h
      · intro h
        cases h
    · rw [map_eq_pure_bind, run_bind_of_ok hrun]
      constructor
      · intro h
        cases h
        rfl
      · intro h
        cases h
        rfl

/-- So does one that is not watched. -/
theorem run_pass_of_leads {asked : List RoundCall} (h : Leads f direction block last asked) :
    (pass (m := Id) f direction block).run = .ok last := by
  cases direction with
  | forward => exact run_permuteRounds_of_trace h
  | inverse =>
    change (invert (m := Id) f block).run = _
    rw [invert, foldlM_invertRound, map_eq_pure_bind]
    change ExceptT.bindCont (m := Id) _
      (roundNumbers.reverse.foldlM (permuteRound (m := Id) f) block.swap).run = _
    rw [run_permuteRounds_of_trace h]
    rfl

end Observation

end Halves

namespace Permutation

section Blocks

variable {f : KeyedFunction} {direction : Direction} {block result : Bytes}
  {calls after : Array RoundCall}

/-- A block passes exactly as its halves are led. -/
theorem run_passBlock_eq_ok_iff :
    (passBlock (RoundFunction.recorded f none) direction block).run calls = (.ok result, after) ↔
      ∃ (n : Nat) (halves last : Halves n) (asked : List RoundCall), block = halves.toBytes ∧
        result = last.toBytes ∧ halves.Leads f direction last asked ∧ after = calls ++ asked := by
  constructor
  · intro h
    by_cases heven : block.length % 2 = 0
    · have hlength : block.length = 2 * (block.length / 2) := by omega
      have hblock := Halves.toBytes_ofBytes block hlength
      rw [← hblock, passBlock_toBytes, run_adapt] at h
      rcases hrun : ((Halves.ofBytes block hlength).pass (RoundFunction.recorded f none)
        direction).run calls with ⟨_ | last, noted⟩
      · rw [run_bind_of_error hrun] at h
        cases h
      · rw [run_bind_of_ok hrun] at h
        cases h
        obtain ⟨asked, hleads, rfl⟩ := Halves.run_pass_eq_ok_iff.mp hrun
        exact ⟨_, _, last, asked, hblock.symm, rfl, hleads, rfl⟩
    · unfold passBlock at h
      rw [dif_neg heven] at h
      cases h
  · rintro ⟨n, halves, last, asked, rfl, rfl, hleads, rfl⟩
    have hrun : (halves.pass (RoundFunction.recorded f none) direction).run calls =
        (.ok last, calls ++ asked) := Halves.run_pass_eq_ok_iff.mpr ⟨asked, hleads, rfl⟩
    rw [passBlock_toBytes, run_adapt, run_bind_of_ok hrun]
    rfl

end Blocks

/-- A range passes exactly when both ranges fit and the block in the input passes; the block that
comes of it takes its place in the output. -/
theorem run_passRange_eq_ok_iff {σ : Type} {g : RoundFunction (StateM σ)} {direction : Direction}
    {input output result : Bytes} {inputOffset outputOffset length : Nat} {s s' : σ} :
    (passRange g direction input inputOffset output outputOffset length).run s = (.ok result, s') ↔
      inputOffset + length ≤ input.length ∧ outputOffset + length ≤ output.length ∧
        ∃ block, (passBlock g direction ((input.drop inputOffset).take length)).run s =
            (.ok block, s') ∧ result = splice output outputOffset block := by
  unfold passRange
  constructor
  · intro h
    obtain ⟨_, _, hinput, h⟩ := run_bind_eq_ok h
    obtain ⟨_, _, houtput, h⟩ := run_bind_eq_ok h
    obtain ⟨block, _, hblock, h⟩ := run_bind_eq_ok h
    rw [run_ofExcept] at hinput houtput
    cases h
    rw [Prod.mk.injEq] at hinput houtput
    obtain ⟨hinput, rfl⟩ := hinput
    obtain ⟨houtput, rfl⟩ := houtput
    exact ⟨checkRange_eq_ok_iff.mp hinput, checkRange_eq_ok_iff.mp houtput, block, hblock, rfl⟩
  · rintro ⟨hinput, houtput, block, hblock, rfl⟩
    have hin : (MonadExcept.ofExcept (checkRange .input inputOffset length input.length) :
        ExceptT PermutationError (StateM σ) Unit).run s = (.ok (), s) := by
      rw [run_ofExcept, checkRange_eq_ok_iff.mpr hinput]
    have hout : (MonadExcept.ofExcept (checkRange .output outputOffset length output.length) :
        ExceptT PermutationError (StateM σ) Unit).run s = (.ok (), s) := by
      rw [run_ofExcept, checkRange_eq_ok_iff.mpr houtput]
    rw [run_bind_of_ok hin, run_bind_of_ok hout, run_bind_of_ok hblock]
    rfl

/-- Where nothing is refused, every block is taken to one that is taken back. -/
theorem exists_passBlock_opposite {f : KeyedFunction} {n : Nat} (h : Answers f n)
    (direction : Direction) (block : {block : Bytes // block.length = 2 * n}) :
    ∃ last : {block : Bytes // block.length = 2 * n},
      (passBlock (m := Id) f direction block.1).run = .ok last.1 ∧
      (passBlock (m := Id) f direction.opposite last.1).run = .ok block.1 := by
  have hpass : ∀ {direction} {halves last : Halves n} {asked : List RoundCall},
      halves.Leads f direction last asked →
        (passBlock (m := Id) f direction halves.toBytes).run = .ok last.toBytes := by
    intro direction halves last asked hleads
    rw [run_passBlock_toBytes, Halves.run_pass_of_leads hleads]
    rfl
  obtain ⟨last, asked, hleads⟩ := Halves.exists_leads h direction (Halves.ofBytes block.1 block.2)
  have hforth := hpass hleads
  have hback := hpass hleads.back
  rw [Halves.toBytes_ofBytes] at hforth hback
  exact ⟨⟨last.toBytes, last.length_toBytes⟩, hforth, hback⟩

/-- A range that was taken somewhere is taken back by the other direction, into any range that fits,
by the same four questions in reverse order. -/
theorem exists_passRange_opposite {f : KeyedFunction} {direction : Direction}
    {input output result : Bytes} {inputOffset outputOffset length : Nat}
    {calls after : Array RoundCall}
    (h : (passRange (RoundFunction.recorded f none) direction input inputOffset output outputOffset
      length).run calls = (.ok result, after)) :
    ∃ asked : List RoundCall, asked.length = 4 ∧ after = calls ++ asked ∧
      ∀ target targetOffset later, targetOffset + length ≤ target.length →
        ∃ restored,
          (passRange (RoundFunction.recorded f none) direction.opposite result outputOffset target
            targetOffset length).run later = (.ok restored, later ++ asked.reverse) ∧
          (restored.drop targetOffset).take length = (input.drop inputOffset).take length := by
  obtain ⟨hinput, houtput, written, hwritten, rfl⟩ := run_passRange_eq_ok_iff.mp h
  obtain ⟨n, halves, last, asked, hhalves, rfl, hleads, rfl⟩ := run_passBlock_eq_ok_iff.mp hwritten
  have hlength : 2 * n = length := by
    rw [← halves.length_toBytes, ← hhalves, length_take_drop hinput]
  subst hlength
  rw [← last.length_toBytes] at houtput
  refine ⟨asked, hleads.length_asked, rfl, ?_⟩
  intro target targetOffset later htarget
  -- The block is read where it was written, so it is led back from there.
  have hread := take_drop_splice houtput
  rw [last.length_toBytes] at hread
  have hback : (passBlock (RoundFunction.recorded f none) direction.opposite last.toBytes).run later =
      (.ok halves.toBytes, later ++ asked.reverse) :=
    run_passBlock_eq_ok_iff.mpr ⟨n, last, halves, asked.reverse, rfl, rfl, hleads.back, rfl⟩
  refine ⟨splice target targetOffset halves.toBytes, ?_, ?_⟩
  · apply run_passRange_eq_ok_iff.mpr
    refine ⟨?_, htarget, halves.toBytes, ?_, rfl⟩
    · rw [length_splice houtput, ← last.length_toBytes]
      exact houtput
    · rw [hread]
      exact hback
  · rw [← halves.length_toBytes] at htarget
    have hrestored := take_drop_splice htarget
    rw [halves.length_toBytes] at hrestored
    rw [hrestored, hhalves]

/-- A round function that answers all questions of one length makes the two directions inverse
bijections of the blocks of twice that length. -/
theorem exists_perm_passBlock {f : KeyedFunction} {n : Nat} (h : Answers f n) :
    ∃ e : Equiv.Perm {block : Bytes // block.length = 2 * n},
      ∀ block, (passBlock (m := Id) f .forward block.1).run = .ok (e block).1 ∧
        (passBlock (m := Id) f .inverse block.1).run = .ok (e.symm block).1 := by
  choose permuted hpermuted using exists_passBlock_opposite h .forward
  choose inverted hinverted using exists_passBlock_opposite h .inverse
  have hleft : ∀ block, inverted (permuted block) = block := by
    intro block
    have hback := (hpermuted block).2
    rw [Direction.opposite, (hinverted (permuted block)).1] at hback
    exact Subtype.ext (Except.ok.inj hback)
  have hright : ∀ block, permuted (inverted block) = block := by
    intro block
    have hback := (hinverted block).2
    rw [Direction.opposite, (hpermuted (inverted block)).1] at hback
    exact Subtype.ext (Except.ok.inj hback)
  exact ⟨⟨permuted, inverted, hleft, hright⟩,
    fun block => ⟨(hpermuted block).1, (hinverted block).1⟩⟩

/-- Whatever the round function, and whichever direction comes first: if a range of the input was
taken to a range of the output, then the other direction takes this range back, into any range of
any buffer, by the same four questions in reverse order. A round function that answers everything
makes the two directions inverse bijections of the blocks of any even length. -/
theorem opposite_undoes (f : KeyedFunction) :
    (∀ direction input inputOffset output outputOffset length calls result after,
      (passRange (RoundFunction.recorded f none) direction input inputOffset output outputOffset
        length).run calls = (.ok result, after) →
      ∃ asked : List RoundCall, asked.length = 4 ∧ after = calls ++ asked ∧
        ∀ target targetOffset later, targetOffset + length ≤ target.length →
          ∃ restored,
            (passRange (RoundFunction.recorded f none) direction.opposite result outputOffset
              target targetOffset length).run later = (.ok restored, later ++ asked.reverse) ∧
            (restored.drop targetOffset).take length = (input.drop inputOffset).take length) ∧
    (∀ n, Answers f n → ∃ e : Equiv.Perm {block : Bytes // block.length = 2 * n},
      ∀ block, (passBlock (m := Id) f .forward block.1).run = .ok (e block).1 ∧
        (passBlock (m := Id) f .inverse block.1).run = .ok (e.symm block).1) :=
  ⟨fun _ _ _ _ _ _ _ _ _ hrun => exists_passRange_opposite hrun,
    fun _ hanswers => exists_perm_passBlock hanswers⟩

/-- Four bytes from behind the first are taken to the end of another buffer and back. -/
theorem opposite_undoes_echo :
    (∃ result after restored, ∃ asked : List RoundCall,
      (passRange (RoundFunction.recorded RoundFunction.echo none) .forward [9, 1, 2, 3, 4] 1
        [0, 0, 0, 0, 0, 0] 2 4).run #[] = (.ok result, after) ∧
      (passRange (RoundFunction.recorded RoundFunction.echo none) .inverse result 2
        [0, 0, 0, 0] 0 4).run after = (.ok restored, after ++ asked.reverse) ∧
      (restored.drop 0).take 4 = [1, 2, 3, 4]) ∧
    ∃ e : Equiv.Perm {block : Bytes // block.length = 2 * 2},
      ∀ block, (passBlock (m := Id) RoundFunction.echo .forward block.1).run = .ok (e block).1 := by
  obtain ⟨hranges, hblocks⟩ := opposite_undoes RoundFunction.echo
  constructor
  · have hrun : (passRange (RoundFunction.recorded RoundFunction.echo none) .forward
        [9, 1, 2, 3, 4] 1 [0, 0, 0, 0, 0, 0] 2 4).run #[] = (.ok _, _) := rfl
    obtain ⟨asked, _, _, hback⟩ := hranges _ _ _ _ _ _ _ _ _ hrun
    obtain ⟨restored, hrestored, hread⟩ := hback [0, 0, 0, 0] 0 _ (by decide)
    exact ⟨_, _, restored, asked, hrun, hrestored, hread⟩
  · obtain ⟨e, he⟩ := hblocks 2 fun _ => ⟨_, rfl⟩
    exact ⟨e, fun block => (he block).1⟩

end Permutation

end SeededGarbling
