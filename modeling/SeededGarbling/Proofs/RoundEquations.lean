import SeededGarbling.Permutation.Scratchpad
import SeededGarbling.Proofs.Inverse

/-!
# The rounds compute the textbook equations

The three buffers of a pass change places in every round. Seen from outside there are only the halves
`L 0, R 0, …, L 4, R 4` of the textbook, the questions in their order, and the first question that
fails, if one does.
-/

namespace SeededGarbling

open Traversal

namespace Scratchpad

section Agreement

variable {m : Type → Type} [Monad m] {n : Nat}

/-- Buffers that hold a block, and anything where the next mask goes. -/
def holding (block : Halves n) (scratch : Vector UInt8 n) : Scratchpad :=
  ⟨block.left.toList, block.right.toList, scratch.toList⟩

/-- Masking in place is masking. -/
theorem xorPrefix_toList (mask half : Vector UInt8 n) :
    Bytes.xorPrefix mask.toList half.toList = (xorVector half mask).toList := by
  rw [xorVector_comm]
  simp only [Bytes.xorPrefix, xorVector, Vector.length_toList, Vector.toList_zipWith]
  rw [List.drop_of_length_le (by simp), List.append_nil]

/-- A mask as long as the room for it is one as long as a half. -/
theorem bind_length_toList {α : Type} (f : RoundFunction m) (input : Bytes) (scratch : Vector UInt8 n)
    (use : Bytes → ExceptT PrimitiveError m α) :
    (do let mask ← f input scratch.toList.length; use mask.toList) =
      (do let mask ← f input n; use mask.toList) := by
  have hlength : ∀ k, k = n → (do let mask ← f input k; use mask.toList) =
      (do let mask ← f input n; use mask.toList) := by
    rintro k rfl
    rfl
  exact hlength _ scratch.length_toList

variable [LawfulMonad m]

/-- A round on buffers that hold a block leaves the next block in them, and where the next mask goes
the half that was masked. -/
theorem permuteRound_holding (f : RoundFunction m) (block : Halves n) (scratch : Vector UInt8 n)
    (number : UInt8) :
    permuteRound f n (holding block scratch) number =
      (fun next => holding next block.left) <$> Halves.permuteRound f block number := by
  have hcut : (block.right.toList ++ [number]).take n = block.right.toList :=
    List.take_left' block.right.length_toList
  unfold permuteRound Halves.permuteRound
  simp only [holding, hcut, map_bind, map_pure]
  rw [bind_length_toList f _ scratch fun mask => pure (Scratchpad.swapRight (Scratchpad.swapHalves
    ⟨block.left.toList, block.right.toList, Bytes.xorPrefix mask block.left.toList⟩))]
  simp only [xorPrefix_toList, swapHalves, swapRight]

/-- So does undoing a round. -/
theorem invertRound_holding (f : RoundFunction m) (block : Halves n) (scratch : Vector UInt8 n)
    (number : UInt8) :
    invertRound f n (holding block scratch) number =
      (fun next => holding next block.right) <$> Halves.invertRound f block number := by
  have hcut : (block.left.toList ++ [number]).take n = block.left.toList :=
    List.take_left' block.left.length_toList
  unfold invertRound Halves.invertRound
  simp only [holding, hcut, map_bind, map_pure]
  rw [bind_length_toList f _ scratch fun mask => pure (Scratchpad.swapLeft (Scratchpad.swapHalves
    ⟨block.left.toList, block.right.toList, Bytes.xorPrefix mask block.right.toList⟩))]
  simp only [xorPrefix_toList, swapHalves, swapLeft]

/-- The halves in the buffers. -/
def halves (pad : Scratchpad) : Bytes × Bytes :=
  (pad.left, pad.right)

/-- Rounds that take buffers from block to block hold, after any number of them, the halves that the
rounds have on blocks. -/
theorem halves_foldlM {round : Scratchpad → UInt8 → ExceptT PrimitiveError m Scratchpad}
    {step : Halves n → UInt8 → ExceptT PrimitiveError m (Halves n)} {old : Halves n → Vector UInt8 n}
    (h : ∀ block scratch number, round (holding block scratch) number =
      (fun next => holding next (old block)) <$> step block number)
    (numbers : List UInt8) (block : Halves n) (scratch : Vector UInt8 n) :
    halves <$> numbers.foldlM round (holding block scratch) =
      (fun last => (last.left.toList, last.right.toList)) <$> numbers.foldlM step block := by
  induction numbers generalizing block scratch with
  | nil => simp only [List.foldlM_nil, map_pure, halves, holding]
  | cons number numbers ih =>
    simp only [List.foldlM_cons, h, bind_map_left, map_bind, ih]

/-- A pass on buffers ends with the halves that the block is taken to. -/
theorem halves_pass (f : RoundFunction m) (direction : Direction) (block : Halves n)
    (scratch : Vector UInt8 n) :
    halves <$> pass f direction (holding block scratch) =
      (fun last => (last.left.toList, last.right.toList)) <$> block.pass f direction := by
  have hhalf : (holding block scratch).left.length = n := block.left.length_toList
  cases direction with
  | forward =>
    simp only [pass, hhalf]
    exact halves_foldlM (permuteRound_holding f) _ block scratch
  | inverse =>
    simp only [pass, hhalf]
    exact halves_foldlM (invertRound_holding f) _ block scratch

/-- Before the first round the buffers hold the halves of the block. -/
theorem ofBlock_toBytes (block : Halves n) :
    ofBlock block.toBytes = holding block (Vector.replicate n 0) := by
  have hhalf : block.toBytes.length / 2 = n := by
    rw [Halves.length_toBytes]
    omega
  unfold ofBlock holding
  rw [hhalf, Halves.toBytes, List.take_left' block.left.length_toList,
    List.drop_left' block.left.length_toList, Vector.toList_replicate]

/-- Byte strings pass on buffers as they pass on halves. -/
theorem passBlock_eq (f : RoundFunction m) (direction : Direction) (block : Bytes) :
    passBlock f direction block = Permutation.passBlock f direction block := by
  by_cases heven : block.length % 2 = 0
  · have hlength : block.length = 2 * (block.length / 2) := by omega
    have hblock := Halves.toBytes_ofBytes block hlength
    have hjoined : ∀ halves : Halves (block.length / 2),
        (do let pad ← pass f direction (holding halves (Vector.replicate _ 0))
            return pad.left ++ pad.right) =
          (do let last ← halves.pass f direction
              return last.toBytes : ExceptT PrimitiveError m Bytes) := by
      intro halves
      have hpass := congrArg (Functor.map fun pair : Bytes × Bytes => pair.1 ++ pair.2)
        (halves_pass f direction halves (Vector.replicate _ 0))
      simp only [map_eq_pure_bind, bind_assoc, pure_bind] at hpass
      exact hpass
    unfold passBlock
    rw [if_pos heven]
    rw [← hblock, ofBlock_toBytes, Permutation.passBlock_toBytes, hjoined]
  · unfold passBlock Permutation.passBlock
    rw [if_neg heven, dif_neg heven]

end Agreement

end Scratchpad

/-- Notes down every question, and leaves the answer to the round function. -/
def RoundFunction.observed {σ : Type} (g : RoundFunction (StateM σ)) :
    RoundFunction (StateM (σ × Array RoundCall)) :=
  fun input n (state, calls) =>
    let (answer, state') := (g input n).run state
    (answer, (state', calls.push ⟨input, n⟩))

/-- To be watched changes neither the answers nor what becomes of the state. -/
theorem RoundFunction.run_observed {σ : Type} {g : RoundFunction (StateM σ)} {input : Bytes} {n : Nat}
    {answer : Except PrimitiveError (Vector UInt8 n)} {s s' : σ} (h : (g input n).run s = (answer, s'))
    (calls : Array RoundCall) :
    (g.observed input n).run (s, calls) = (answer, (s', calls.push ⟨input, n⟩)) := by
  change (((g input n).run s).1, ((g input n).run s).2, _) = _
  rw [h]

namespace Direction

/-- The numbers of the rounds, in the order of a direction. -/
def rounds : Direction → List Nat
  | forward => [1, 2, 3, 4]
  | inverse => [4, 3, 2, 1]

/-- The index of the halves that a direction starts from. -/
def first : Direction → Nat
  | forward => 0
  | inverse => 4

/-- The index of the halves that a direction ends with. -/
def last : Direction → Nat
  | forward => 4
  | inverse => 0

/-- Round `i` stands between the halves `i - 1` and `i`: these are the ones a direction comes from. -/
def source : Direction → Nat → Nat
  | forward, i => i - 1
  | inverse, i => i

/-- The halves that a direction leaves round `i` with. -/
def target : Direction → Nat → Nat
  | forward, i => i
  | inverse, i => i - 1

end Direction

namespace Permutation

section Equations

variable {σ : Type} {n : Nat}

/-- The question of round `i`: `R (i - 1) ‖ i` in the permutation, `L i ‖ i` in its inverse, and the
length of a half. -/
def question (direction : Direction) (L R : Nat → Vector UInt8 n) (i : Nat) : RoundCall :=
  match direction with
  | .forward => ⟨(R (i - 1)).toList ++ [UInt8.ofNat i], n⟩
  | .inverse => ⟨(L i).toList ++ [UInt8.ofNat i], n⟩

/-- The equations of round `i`, between the state before its question and the one behind it. -/
def RoundEquations (g : RoundFunction (StateM σ)) (direction : Direction)
    (L R : Nat → Vector UInt8 n) (states : Nat → σ) (i : Nat) : Prop :=
  ∃ mask, (g (question direction L R i).input n).run (states (direction.source i)) =
      (.ok mask, states (direction.target i)) ∧
    match direction with
    | .forward => L i = R (i - 1) ∧ R i = xorVector (L (i - 1)) mask
    | .inverse => R (i - 1) = L i ∧ L (i - 1) = xorVector (R i) mask

/-- How a pass ends: with the number of questions, the outcome and the state behind it. -/
inductive Ends (g : RoundFunction (StateM σ)) (direction : Direction) (L R : Nat → Vector UInt8 n)
    (states : Nat → σ) : Nat → Except PermutationError Bytes → σ → Prop where
  /-- Every round has its equations, and the last halves are given back. -/
  | done (hrounds : ∀ i ∈ direction.rounds, RoundEquations g direction L R states i) :
    Ends g direction L R states 4
      (.ok ((L direction.last).toList ++ (R direction.last).toList)) (states direction.last)
  /-- The rounds before one of them have their equations. The question of this one is the last to be
  asked, it fails, and the pass fails with it. -/
  | failed {before i : Nat} {cause : PrimitiveError} {after : σ}
    (hround : direction.rounds[before]? = some i)
    (hrounds : ∀ j ∈ direction.rounds.take before, RoundEquations g direction L R states j)
    (hfails : (g (question direction L R i).input n).run (states (direction.source i)) =
      (.error cause, after)) :
    Ends g direction L R states (before + 1) (.error (.roundFunction cause)) after

end Equations

end Permutation

namespace Halves

section Observation

variable {σ : Type} {n : Nat} {g : RoundFunction (StateM σ)}

/-- The question of a round of the permutation. -/
def question (block : Halves n) (number : UInt8) : RoundCall :=
  ⟨block.right.toList ++ [number], n⟩

/-- What a round of the permutation makes of a block, between two states. -/
def Passes (g : RoundFunction (StateM σ)) (number : UInt8) (block next : Halves n) (s s' : σ) :
    Prop :=
  ∃ mask, (g (block.question number).input n).run s = (.ok mask, s') ∧
    next = ⟨block.right, xorVector block.left mask⟩

/-- A round that is given its mask leaves the next block. -/
theorem run_permuteRound_of_ok {τ : Type} {f : RoundFunction (StateM τ)} {number : UInt8}
    {block : Halves n} {mask : Vector UInt8 n} {t t' : τ}
    (h : (f (block.question number).input n).run t = (.ok mask, t')) :
    (permuteRound f block number).run t = (.ok ⟨block.right, xorVector block.left mask⟩, t') :=
  run_bind_of_ok h

/-- A round that is not given its mask fails. -/
theorem run_permuteRound_of_error {τ : Type} {f : RoundFunction (StateM τ)} {number : UInt8}
    {block : Halves n} {cause : PrimitiveError} {t t' : τ}
    (h : (f (block.question number).input n).run t = (.error cause, t')) :
    (permuteRound f block number).run t = (.error cause, t') :=
  run_bind_of_error h

/-- A row of blocks and states along rounds of the permutation, with the number of questions that are
asked, the outcome and the state behind it. -/
inductive Runs (g : RoundFunction (StateM σ)) (numbers : List UInt8) (row : Nat → Halves n)
    (states : Nat → σ) : Nat → Except PrimitiveError (Halves n) → σ → Prop where
  /-- Every round passes. -/
  | done (hrounds : ∀ k number, numbers[k]? = some number →
      Passes g number (row k) (row (k + 1)) (states k) (states (k + 1))) :
    Runs g numbers row states numbers.length (.ok (row numbers.length)) (states numbers.length)
  /-- Some rounds pass, and the question of the next one fails. -/
  | failed {before : Nat} {number : UInt8} {cause : PrimitiveError} {after : σ}
    (hround : numbers[before]? = some number)
    (hrounds : ∀ k < before, ∀ number, numbers[k]? = some number →
      Passes g number (row k) (row (k + 1)) (states k) (states (k + 1)))
    (hfails : (g ((row before).question number).input n).run (states before) =
      (.error cause, after)) :
    Runs g numbers row states (before + 1) (.error cause) after

/-- A row with one more place in front. -/
def preceded {α : Type} (a : α) (row : Nat → α) : Nat → α
  | 0 => a
  | k + 1 => row k

/-- A round that passes comes before any other rounds. -/
theorem Runs.cons {number : UInt8} {numbers : List UInt8} {block : Halves n} {s : σ}
    {row : Nat → Halves n} {states : Nat → σ} {asked : Nat}
    {outcome : Except PrimitiveError (Halves n)} {after : σ}
    (hround : Passes g number block (row 0) s (states 0))
    (h : Runs g numbers row states asked outcome after) :
    Runs g (number :: numbers) (preceded block row) (preceded s states) (asked + 1) outcome after := by
  cases h with
  | done hrounds =>
    refine .done ?_
    rintro (_ | k) number' hnumber
    · cases hnumber
      exact hround
    · exact hrounds k number' hnumber
  | failed hlast hrounds hfails =>
    refine .failed hlast ?_ hfails
    rintro (_ | k) hk number' hnumber
    · cases hnumber
      exact hround
    · exact hrounds k (by omega) number' hnumber

/-- Rounds run along a row of blocks, whether they are watched or not; whoever watches them sees the
questions of the row, up to the first that fails. -/
theorem exists_runs (g : RoundFunction (StateM σ)) (numbers : List UInt8) (block : Halves n) (s : σ)
    (calls : Array RoundCall) :
    ∃ (row : Nat → Halves n) (states : Nat → σ) (asked : Nat)
      (outcome : Except PrimitiveError (Halves n)) (after : σ),
      row 0 = block ∧ states 0 = s ∧ Runs g numbers row states asked outcome after ∧
      (numbers.foldlM (permuteRound g) block).run s = (outcome, after) ∧
      (numbers.foldlM (permuteRound g.observed) block).run (s, calls) =
        (outcome, (after,
          calls ++ (numbers.mapIdx fun k number => (row k).question number).take asked)) := by
  induction numbers generalizing block s calls with
  | nil =>
    refine ⟨fun _ => block, fun _ => s, 0, .ok block, s, rfl, rfl, .done ?_, rfl, ?_⟩
    · intro k number hnumber
      cases hnumber
    · have hnone : calls ++ ([] : List RoundCall) = calls := by simp
      rw [List.take_zero, hnone]
      rfl
  | cons number numbers ih =>
    rw [List.foldlM_cons, List.foldlM_cons]
    rcases hanswer : (g (block.question number).input n).run s with ⟨cause | mask, s'⟩
    · have hnoted := RoundFunction.run_observed hanswer calls
      refine ⟨fun _ => block, fun _ => s, 1, .error cause, s', rfl, rfl,
        .failed rfl (fun k hk => absurd hk k.not_lt_zero) hanswer, ?_, ?_⟩
      · rw [run_bind_of_error (run_permuteRound_of_error hanswer)]
      · rw [run_bind_of_error (run_permuteRound_of_error hnoted)]
        simp [List.mapIdx_cons, question]
    · have hnoted := RoundFunction.run_observed hanswer calls
      obtain ⟨row, states, asked, outcome, after, hrow, rfl, hruns, hrun, hwatched⟩ :=
        ih ⟨block.right, xorVector block.left mask⟩ s' (calls.push (block.question number))
      refine ⟨preceded block row, preceded s states, asked + 1, outcome, after, rfl, rfl,
        hruns.cons ⟨mask, hanswer, hrow⟩, ?_, ?_⟩
      · rw [run_bind_of_ok (run_permuteRound_of_ok hanswer), hrun]
      · rw [run_bind_of_ok (run_permuteRound_of_ok hnoted)]
        -- The question just asked stands in front of those of the rest.
        change (numbers.foldlM (permuteRound g.observed) _).run
          (_, calls.push (block.question number)) = _
        rw [hwatched, List.mapIdx_cons, List.take_succ_cons]
        simp [preceded]

end Observation

end Halves

namespace Direction

/-- The round that comes when `k` rounds of a direction have been made. -/
def round : Direction → Nat → Nat
  | forward, k => k + 1
  | inverse, k => 4 - k

/-- The number of rounds a direction makes before it comes to the halves with an index. -/
def progress : Direction → Nat → Nat
  | forward, i => i
  | inverse, i => 4 - i

/-- The bytes that a direction asks with. -/
def numbers : Direction → List UInt8
  | forward => roundNumbers
  | inverse => roundNumbers.reverse

theorem rounds_eq (direction : Direction) : direction.rounds = (List.range 4).map direction.round := by
  cases direction <;> rfl

theorem numbers_eq (direction : Direction) :
    direction.numbers = direction.rounds.map UInt8.ofNat := by
  cases direction <;> rfl

/-- The rounds of a direction by their places. -/
theorem getElem?_rounds (direction : Direction) {k i : Nat} :
    direction.rounds[k]? = some i ↔ k < 4 ∧ direction.round k = i := by
  rw [rounds_eq, List.getElem?_map, Option.map_eq_some_iff]
  simp only [List.getElem?_eq_some_iff, List.length_range, List.getElem_range]
  constructor
  · rintro ⟨_, ⟨hk, rfl⟩, rfl⟩
    exact ⟨hk, rfl⟩
  · rintro ⟨hk, rfl⟩
    exact ⟨k, ⟨hk, rfl⟩, rfl⟩

end Direction

namespace Halves

section Directions

variable {n : Nat}

/-- A block as the rounds of a direction have it: the inverse works on exchanged halves. -/
def facing : Direction → Halves n → Halves n
  | .forward, block => block
  | .inverse, block => block.swap

theorem facing_facing (direction : Direction) (block : Halves n) :
    facing direction (facing direction block) = block := by
  cases direction <;> rfl

/-- Both directions make rounds of the permutation, each on the halves as it has them. -/
theorem pass_eq_map_facing {m : Type → Type} [Monad m] [LawfulMonad m] (f : RoundFunction m)
    (direction : Direction) (block : Halves n) :
    block.pass f direction =
      facing direction <$> direction.numbers.foldlM (permuteRound f) (facing direction block) := by
  cases direction with
  | forward => exact (id_map' _).symm
  | inverse => exact foldlM_invertRound f _ block

variable {σ : Type} {g : RoundFunction (StateM σ)} {direction : Direction} {row : Nat → Halves n}
  {states : Nat → σ}

/-- The left halves along a row, by their index. -/
def leftOf (direction : Direction) (row : Nat → Halves n) (i : Nat) : Vector UInt8 n :=
  (facing direction (row (direction.progress i))).left

/-- The right halves along a row, by their index. -/
def rightOf (direction : Direction) (row : Nat → Halves n) (i : Nat) : Vector UInt8 n :=
  (facing direction (row (direction.progress i))).right

end Directions

end Halves

namespace Permutation

section Rows

variable {σ : Type} {n : Nat} {g : RoundFunction (StateM σ)} {direction : Direction}
  {row : Nat → Halves n} {states : Nat → σ}

open Halves

/-- The question of a round along a row. -/
theorem question_round {k : Nat} (hk : k < 4) :
    question direction (leftOf direction row) (rightOf direction row) (direction.round k) =
      (row k).question (UInt8.ofNat (direction.round k)) := by
  cases direction with
  | forward => rfl
  | inverse =>
    have hback : 4 - (4 - k) = k := by omega
    simp only [question, leftOf, facing, swap, Direction.progress, Direction.round, hback,
      Halves.question]

/-- A round that passes is a round with its equations. -/
theorem roundEquations_of_passes {k : Nat} (hk : k < 4)
    (h : Passes g (UInt8.ofNat (direction.round k)) (row k) (row (k + 1)) (states k)
      (states (k + 1))) :
    RoundEquations g direction (leftOf direction row) (rightOf direction row)
      (fun i => states (direction.progress i)) (direction.round k) := by
  obtain ⟨mask, hmask, hnext⟩ := h
  rw [← question_round hk] at hmask
  cases direction with
  | forward =>
    refine ⟨mask, hmask, ?_, ?_⟩
    · exact congrArg Halves.left hnext
    · exact congrArg Halves.right hnext
  | inverse =>
    have hsource : 4 - (4 - k) = k := by omega
    have htarget : 4 - (4 - k - 1) = k + 1 := by omega
    refine ⟨mask, ?_, ?_, ?_⟩
    · simp only [Direction.progress, Direction.source, Direction.target, Direction.round, hsource,
        htarget]
      exact hmask
    · simp only [leftOf, rightOf, facing, swap, Direction.progress, Direction.round, hsource,
        htarget, hnext]
    · simp only [leftOf, rightOf, facing, swap, Direction.progress, Direction.round, hsource,
        htarget, hnext]

/-- A pass ends as its row of blocks does. -/
theorem ends_of_runs {asked : Nat} {outcome : Except PrimitiveError (Halves n)} {after : σ}
    (h : Runs g direction.numbers row states asked outcome after) :
    Ends g direction (leftOf direction row) (rightOf direction row)
      (fun i => states (direction.progress i)) asked
      ((outcome.map fun last => (facing direction last).toBytes).mapError .roundFunction) after := by
  have hpasses : ∀ {k i}, direction.rounds[k]? = some i →
      (∀ number, direction.numbers[k]? = some number →
        Passes g number (row k) (row (k + 1)) (states k) (states (k + 1))) →
      RoundEquations g direction (leftOf direction row) (rightOf direction row)
        (fun i => states (direction.progress i)) i := by
    intro k i hi hround
    obtain ⟨hk, rfl⟩ := direction.getElem?_rounds.mp hi
    refine roundEquations_of_passes hk (hround _ ?_)
    rw [direction.numbers_eq, List.getElem?_map, hi]
    rfl
  cases h with
  | done hrounds =>
    have hall : ∀ i ∈ direction.rounds, RoundEquations g direction (leftOf direction row)
        (rightOf direction row) (fun i => states (direction.progress i)) i := by
      intro i hi
      obtain ⟨k, hk⟩ := List.getElem?_of_mem hi
      exact hpasses hk (hrounds k)
    cases direction with
    | forward => exact .done hall
    | inverse => exact .done hall
  | @failed before number cause _ hround hrounds hfails =>
    rw [direction.numbers_eq, List.getElem?_map, Option.map_eq_some_iff] at hround
    obtain ⟨i, hi, rfl⟩ := hround
    obtain ⟨hk, rfl⟩ := direction.getElem?_rounds.mp hi
    have hsource : direction.progress (direction.source (direction.round before)) = before := by
      cases direction with
      | forward => rfl
      | inverse =>
        simp only [Direction.progress, Direction.source, Direction.round]
        omega
    refine .failed hi ?_ ?_
    · intro j hj
      obtain ⟨k, hk⟩ := List.getElem?_of_mem hj
      rw [List.getElem?_take] at hk
      split_ifs at hk with hbefore
      exact hpasses hk (hrounds k hbefore)
    · rw [question_round hk, hsource]
      exact hfails

/-- The outcome of a pass is that of its rounds. -/
theorem run_passBlock_of_rounds {τ : Type} {f : RoundFunction (StateM τ)} (block : Halves n)
    {outcome : Except PrimitiveError (Halves n)} {t t' : τ}
    (h : (direction.numbers.foldlM (permuteRound f) (facing direction block)).run t = (outcome, t')) :
    (passBlock f direction (block.left.toList ++ block.right.toList)).run t =
      ((outcome.map fun last => (facing direction last).toBytes).mapError .roundFunction, t') := by
  change (passBlock f direction block.toBytes).run t = _
  rw [passBlock_toBytes, run_adapt, pass_eq_map_facing, bind_map_left]
  cases outcome with
  | error cause => rw [run_bind_of_error h]; rfl
  | ok last => rw [run_bind_of_ok h]; rfl

/-- The questions along a row are those of the rounds. -/
theorem mapIdx_question (direction : Direction) (row : Nat → Halves n) :
    (direction.numbers.mapIdx fun k number => (row k).question number) =
      direction.rounds.map (question direction (leftOf direction row) (rightOf direction row)) := by
  cases direction <;> rfl

end Rows

/-- Whatever the round function, a block passes by the equations of its rounds, in the order of the
direction: as many questions are asked as there are rounds with their equations, and one more where a
question fails, whose cause is the outcome. Neither the buffers of a pass nor to be watched make a
difference. -/
theorem passBlock_follows_equations {σ : Type} (g : RoundFunction (StateM σ)) (direction : Direction)
    {n : Nat} (left right : Vector UInt8 n) (s : σ) (calls : Array RoundCall) :
    ∃ (L R : Nat → Vector UInt8 n) (states : Nat → σ) (asked : Nat)
      (outcome : Except PermutationError Bytes) (after : σ),
      L direction.first = left ∧ R direction.first = right ∧ states direction.first = s ∧
      Ends g direction L R states asked outcome after ∧
      (passBlock g direction (left.toList ++ right.toList)).run s = (outcome, after) ∧
      (passBlock g.observed direction (left.toList ++ right.toList)).run (s, calls) =
        (outcome, (after, calls ++ (direction.rounds.map (question direction L R)).take asked)) ∧
      (Scratchpad.passBlock g.observed direction (left.toList ++ right.toList)).run (s, calls) =
        (outcome, (after, calls ++ (direction.rounds.map (question direction L R)).take asked)) := by
  obtain ⟨row, states, asked, outcome, after, hrow, hstates, hruns, hrun, hwatched⟩ :=
    Halves.exists_runs g direction.numbers (Halves.facing direction ⟨left, right⟩) s calls
  have hfirst : direction.progress direction.first = 0 := by cases direction <;> rfl
  have hstart : Halves.facing direction (row 0) = ⟨left, right⟩ := by
    rw [hrow, Halves.facing_facing]
  have hpass := run_passBlock_of_rounds ⟨left, right⟩ hwatched
  rw [mapIdx_question] at hpass
  refine ⟨_, _, _, asked, _, after, ?_, ?_, ?_, ends_of_runs hruns,
    run_passBlock_of_rounds ⟨left, right⟩ hrun, hpass, ?_⟩
  · rw [Halves.leftOf, hfirst, hstart]
  · rw [Halves.rightOf, hfirst, hstart]
  · rw [hfirst, hstates]
  · rw [Scratchpad.passBlock_eq]
    exact hpass

end Permutation

end SeededGarbling
