import Mathlib.Algebra.Ring.Nat
import SeededGarbling.Proofs.Preparation

/-!
# Generators follow one keystream per seed

A generator can be seeded and filled from in any order. What it yields depends on two things: the last
seed that it accepted, and how far the fills since then have moved on in the keystream of that seed. A
read can be cut into pieces wherever a piece ends at a boundary at which reads end.
-/

namespace SeededGarbling

/-- What a generator can be asked for. -/
inductive Request where
  /-- To start the keystream of a seed. -/
  | seed (bytes : Bytes)
  /-- For the next bytes of the running keystream. -/
  | fill (length : Nat)
  deriving DecidableEq, Repr

namespace Request

/-- Asks a generator. A seed yields no bytes. -/
def perform {γ : Type} [Generator γ] : Request → ExceptT PrimitiveError (StateM γ) Bytes
  | seed bytes => (fun _ => []) <$> Generator.seed bytes
  | fill length => Vector.toList <$> Generator.fill length

/-- The generator behind some requests, whatever came of them. -/
def behind {γ : Type} [Generator γ] (requests : List Request) (generator : γ) : γ :=
  requests.foldl (fun generator request => (request.perform.run generator).2) generator

/-- A request that starts a keystream: a seed of the right length. -/
def Starts (algorithm : PrgAlgorithm) : Request → Prop
  | seed bytes => bytes.length = algorithm.seedLength
  | fill _ => False

/-- How far a request moves on in the running keystream. ChaCha gives out whole words. -/
def advance : PrgAlgorithm → Request → Nat
  | _, seed _ => 0
  | .chacha20, fill length => 4 * ((length + 3) / 4)
  | .aes128Ctr, fill length => length

end Request

/-- Which keystream is running behind some requests, and how much of it is used up. -/
inductive Playing (algorithm : PrgAlgorithm) (requests : List Request) :
    Option StreamPosition → Prop where
  /-- No request has started one. -/
  | silent (h : ∀ request ∈ requests, ¬request.Starts algorithm) : Playing algorithm requests none
  /-- It was started by the last request that starts one, and what was asked for since is used up. -/
  | playing {before after : List Request} {seed : Bytes}
    (hsplit : requests = before ++ .seed seed :: after)
    (hseed : seed.length = algorithm.seedLength)
    (hafter : ∀ request ∈ after, ¬request.Starts algorithm) :
    Playing algorithm requests (some ⟨seed, (after.map (Request.advance algorithm)).sum⟩)

namespace StreamGenerator

/-- Moves on in the running keystream, if there is one. -/
def moveOn (generator : StreamGenerator) (distance : Nat) : StreamGenerator :=
  { generator with
    stream := generator.stream.map fun stream => ⟨stream.seed, stream.position + distance⟩ }

@[simp] theorem algorithm_moveOn (generator : StreamGenerator) (distance : Nat) :
    (generator.moveOn distance).algorithm = generator.algorithm := rfl

@[simp] theorem moveOn_zero (generator : StreamGenerator) : generator.moveOn 0 = generator := by
  obtain ⟨algorithm, stream⟩ := generator
  cases stream <;> rfl

/-- Where none is running, there is nothing to move on in. -/
theorem moveOn_of_silent {generator : StreamGenerator} (h : generator.stream = none)
    (distance : Nat) : generator.moveOn distance = generator := by
  obtain ⟨algorithm, _⟩ := generator
  cases h
  rfl

@[simp] theorem moveOn_moveOn (generator : StreamGenerator) (first second : Nat) :
    (generator.moveOn first).moveOn second = generator.moveOn (first + second) := by
  obtain ⟨algorithm, stream⟩ := generator
  cases stream with
  | none => rfl
  | some stream => simp [moveOn, Nat.add_assoc]

end StreamGenerator

namespace Request

variable {algorithm : PrgAlgorithm} {generator : StreamGenerator} {stream : StreamPosition}
  {requests : List Request}

/-- Reads advance as far as they consume. -/
theorem advance_fill (algorithm : PrgAlgorithm) (n : Nat) :
    advance algorithm (fill n) = algorithm.consumed n := by
  cases algorithm with
  | chacha20 =>
    change 4 * ((n + 3) / 4) = (n + 4 - 1) / 4 * 4
    omega
  | aes128Ctr =>
    change n = (n + 1 - 1) / 1 * 1
    omega

/-- A seed of the right length starts its keystream, and any other changes nothing. -/
theorem run_perform_seed (bytes : Bytes) (generator : StreamGenerator) :
    (seed bytes).perform.run generator =
      if bytes.length = generator.algorithm.seedLength
        then (.ok [], ⟨generator.algorithm, some ⟨bytes, 0⟩⟩)
        else (.error (.invalidKeyLength generator.algorithm.seedLength bytes.length), generator) := by
  rw [perform, run_map]
  by_cases hseed : bytes.length = generator.algorithm.seedLength
  · rw [if_pos hseed, StreamGenerator.run_seed_of_length hseed]
    rfl
  · rw [if_neg hseed, StreamGenerator.run_seed_of_length_ne hseed]
    rfl

/-- Nothing is read before the first keystream is started. -/
theorem run_perform_fill_of_silent (h : generator.stream = none) (n : Nat) :
    (fill n).perform.run generator = (.error .unseeded, generator) := by
  obtain ⟨algorithm, _⟩ := generator
  cases h
  rfl

/-- Afterwards the next bytes are read, and the position moves on. -/
theorem run_perform_fill_of_playing (h : generator.stream = some stream) (n : Nat) :
    (fill n).perform.run generator =
      (.ok ((generator.algorithm.keystream stream.seed).slice stream.position n).toList,
        generator.moveOn (advance generator.algorithm (fill n))) := by
  obtain ⟨algorithm, _⟩ := generator
  cases h
  rw [advance_fill]
  rfl

/-- These are the bytes of the keystream from that position on. -/
theorem exists_run_fill_of_playing (h : generator.stream = some stream) (n : Nat) :
    ∃ bytes, ((fill n).perform.run generator).1 = .ok bytes ∧ bytes.length = n ∧
      ∀ i < n, bytes[i]? =
        some ((generator.algorithm.keystream stream.seed).byteAt (stream.position + i)) := by
  have hfill := run_perform_fill_of_playing h n
  refine ⟨_, congrArg Prod.fst hfill, Vector.length_toList, ?_⟩
  intro i hi
  rw [← Keystream.getElem_slice _ _ n i hi]
  simp [hi]

/-- A request that does not start a keystream moves on in the running one. -/
theorem run_perform_of_not_starts {request : Request} (h : ¬request.Starts generator.algorithm) :
    (request.perform.run generator).2 = generator.moveOn (request.advance generator.algorithm) := by
  cases request with
  | seed bytes =>
    have hlength : ¬bytes.length = generator.algorithm.seedLength := h
    rw [run_perform_seed, if_neg hlength]
    exact generator.moveOn_zero.symm
  | fill n =>
    cases hstream : generator.stream with
    | none =>
      rw [run_perform_fill_of_silent hstream, StreamGenerator.moveOn_of_silent hstream]
    | some stream => rw [run_perform_fill_of_playing hstream]

/-- So do any number of them. -/
theorem behind_of_not_starts (h : ∀ request ∈ requests, ¬request.Starts generator.algorithm) :
    behind requests generator =
      generator.moveOn (requests.map (advance generator.algorithm)).sum := by
  induction requests generalizing generator with
  | nil => exact generator.moveOn_zero.symm
  | cons request requests ih =>
    rw [List.forall_mem_cons] at h
    let distance := request.advance generator.algorithm
    have hrest : ∀ other ∈ requests, ¬other.Starts (generator.moveOn distance).algorithm := h.2
    change behind requests (request.perform.run generator).2 = _
    rw [run_perform_of_not_starts h.1, ih hrest, StreamGenerator.moveOn_moveOn, List.map_cons,
      List.sum_cons]
    rfl

/-- No request changes the algorithm. -/
theorem algorithm_behind (requests : List Request) (generator : StreamGenerator) :
    (behind requests generator).algorithm = generator.algorithm := by
  induction requests generalizing generator with
  | nil => rfl
  | cons request requests ih =>
    change (behind requests (request.perform.run generator).2).algorithm = _
    rw [ih]
    by_cases hstarts : request.Starts generator.algorithm
    · cases request with
      | seed bytes =>
        have hlength : bytes.length = generator.algorithm.seedLength := hstarts
        rw [run_perform_seed, if_pos hlength]
      | fill n => exact hstarts.elim
    · rw [run_perform_of_not_starts hstarts, StreamGenerator.algorithm_moveOn]

section Pieces

variable {m n : Nat}

/-- A read may end anywhere with AES, and behind whole words with ChaCha. -/
theorem granularity_dvd (h : algorithm = .aes128Ctr ∨ 4 ∣ n) : algorithm.granularity ∣ n := by
  cases algorithm with
  | chacha20 =>
    rcases h with haes | hwords
    · cases haes
    · exact hwords
  | aes128Ctr => exact Nat.one_dvd n

/-- Two reads use up what one read of both lengths does, if the first ends where a read may end or there
is nothing in the second. -/
theorem advance_fill_add (h : n = 0 ∨ algorithm.granularity ∣ m) :
    advance algorithm (fill m) + advance algorithm (fill n) = advance algorithm (fill (m + n)) := by
  cases algorithm with
  | chacha20 =>
    change n = 0 ∨ 4 ∣ m at h
    change 4 * ((m + 3) / 4) + 4 * ((n + 3) / 4) = 4 * ((m + n + 3) / 4)
    omega
  | aes128Ctr => rfl

/-- They also yield the same bytes. -/
theorem slice_append_slice (h : n = 0 ∨ algorithm.granularity ∣ m) (keystream : Keystream)
    (start : Nat) :
    (keystream.slice start m).toList ++
        (keystream.slice (start + advance algorithm (fill m)) n).toList =
      (keystream.slice start (m + n)).toList := by
  rcases h with rfl | hm
  · have hempty : ∀ position : Nat, (keystream.slice position 0).toList = [] :=
      fun _ => List.eq_nil_of_length_eq_zero Vector.length_toList
    rw [hempty, List.append_nil]
    rfl
  · have hadvance : advance algorithm (fill m) = m := by
      cases algorithm with
      | chacha20 =>
        change 4 ∣ m at hm
        change 4 * ((m + 3) / 4) = m
        omega
      | aes128Ctr => rfl
    rw [hadvance, ← Vector.toList_append, Keystream.slice_append]

/-- Pieces that all but the last end where a read may end give together what one read gives, and leave
the generator at the same place. -/
theorem exists_run_pieces {pieces : List Nat} (hstream : generator.stream = some stream)
    (h : ∀ piece ∈ pieces.dropLast, generator.algorithm.granularity ∣ piece) :
    ∃ parts, (pieces.mapM fun n => (fill n).perform).run generator =
        (.ok parts, generator.moveOn (advance generator.algorithm (fill pieces.sum))) ∧
      parts.flatten =
        ((generator.algorithm.keystream stream.seed).slice stream.position pieces.sum).toList := by
  induction pieces generalizing generator stream with
  | nil =>
    have hnothing : advance generator.algorithm (fill 0) = 0 := by
      cases generator.algorithm <;> rfl
    refine ⟨[], ?_, (List.eq_nil_of_length_eq_zero Vector.length_toList).symm⟩
    rw [List.sum_nil, hnothing, StreamGenerator.moveOn_zero]
    rfl
  | cons piece pieces ih =>
    have hcut : pieces.sum = 0 ∨ generator.algorithm.granularity ∣ piece := by
      cases pieces with
      | nil => exact .inl rfl
      | cons next pieces => exact .inr (h piece List.mem_cons_self)
    have hrest : ∀ other ∈ pieces.dropLast, generator.algorithm.granularity ∣ other := by
      intro other hother
      cases pieces with
      | nil => cases hother
      | cons next pieces => exact h other (List.mem_cons_of_mem _ hother)
    let distance := advance generator.algorithm (fill piece)
    have hmoved : (generator.moveOn distance).stream =
        some ⟨stream.seed, stream.position + distance⟩ := by
      rw [StreamGenerator.moveOn, hstream]
      rfl
    obtain ⟨parts, hrun, hparts⟩ := ih hmoved hrest
    have hfirst := run_perform_fill_of_playing hstream piece
    let first := (generator.algorithm.keystream stream.seed).slice stream.position piece
    refine ⟨first.toList :: parts, ?_, ?_⟩
    · rw [List.mapM_cons, run_bind_of_ok hfirst, run_bind_of_ok hrun,
        StreamGenerator.moveOn_moveOn, StreamGenerator.algorithm_moveOn, advance_fill_add hcut,
        List.sum_cons]
      rfl
    · rw [List.flatten_cons, hparts, List.sum_cons, ← slice_append_slice hcut]
      rfl

end Pieces

end Request

namespace Playing

open Request

variable {algorithm : PrgAlgorithm} {requests : List Request} {stream : Option StreamPosition}

/-- Behind any requests either some keystream is running or none. -/
theorem exists_playing (algorithm : PrgAlgorithm) (requests : List Request) :
    ∃ stream, Playing algorithm requests stream := by
  induction requests with
  | nil => exact ⟨none, .silent fun request hrequest => absurd hrequest List.not_mem_nil⟩
  | cons request requests ih =>
    obtain ⟨_, hplaying | ⟨hsplit, hseed, hafter⟩⟩ := ih
    · by_cases hstarts : request.Starts algorithm
      · cases request with
        | seed bytes => exact ⟨_, .playing (List.nil_append _).symm hstarts hplaying⟩
        | fill n => exact hstarts.elim
      · exact ⟨none, .silent (List.forall_mem_cons.mpr ⟨hstarts, hplaying⟩)⟩
    · rw [hsplit, ← List.cons_append]
      exact ⟨_, .playing rfl hseed hafter⟩

/-- The generator behind the requests plays the keystream that it should. -/
theorem behind_eq (h : Playing algorithm requests stream) :
    behind requests (StreamGenerator.new algorithm) = ⟨algorithm, stream⟩ := by
  cases h with
  | silent h => exact behind_of_not_starts h
  | @playing before after seed hsplit hseed hafter =>
    let reached := behind before (StreamGenerator.new algorithm)
    have hreached : reached.algorithm = algorithm := algorithm_behind before _
    have hstarted : ((Request.seed seed).perform.run reached).2 = ⟨algorithm, some ⟨seed, 0⟩⟩ := by
      rw [run_perform_seed, hreached, if_pos hseed]
    have hrest : ∀ request ∈ after,
        ¬request.Starts (StreamGenerator.mk algorithm (some ⟨seed, 0⟩)).algorithm := hafter
    rw [hsplit, behind, List.foldl_append, List.foldl_cons]
    change behind after ((Request.seed seed).perform.run reached).2 = _
    rw [hstarted, behind_of_not_starts hrest]
    simp [StreamGenerator.moveOn]

/-- It refuses to be read just if no request has started a keystream. -/
theorem run_fill_eq_unseeded_iff (h : Playing algorithm requests stream) (n : Nat) :
    ((fill n).perform.run (behind requests (StreamGenerator.new algorithm))).1 =
        .error .unseeded ↔ ∀ request ∈ requests, ¬request.Starts algorithm := by
  rw [h.behind_eq]
  cases h with
  | silent h =>
    rw [run_perform_fill_of_silent rfl]
    exact iff_of_true rfl h
  | @playing before after seed hsplit hseed hafter =>
    have hstarted : Request.seed seed ∈ requests := by
      rw [hsplit]
      exact List.mem_append_right _ List.mem_cons_self
    rw [run_perform_fill_of_playing rfl]
    refine iff_of_false (by simp) ?_
    intro hsilent
    exact hsilent _ hstarted hseed

end Playing

/-- Whatever a generator of either algorithm was asked for: a seed is accepted if it has the right
length and starts its keystream from the beginning, and any other changes nothing. No read succeeds
before the first seed that is accepted. Afterwards a read yields the bytes of the keystream of the last
one, from where the reads since then have come to: AES moves on by what is read, ChaCha by whole words.
A read in pieces is one read, with ChaCha if all but the last piece consist of whole words. -/
theorem requests_follow_keystream (algorithm : PrgAlgorithm) (requests : List Request) :
    let generator := Request.behind requests (StreamGenerator.new algorithm)
    (∀ bytes, (Request.seed bytes).perform.run generator =
      if bytes.length = algorithm.seedLength then (.ok [], ⟨algorithm, some ⟨bytes, 0⟩⟩)
      else (.error (.invalidKeyLength algorithm.seedLength bytes.length), generator)) ∧
    (∀ n, ((Request.fill n).perform.run generator).1 = .error .unseeded ↔
      ∀ request ∈ requests, ¬request.Starts algorithm) ∧
    (∃ stream, Playing algorithm requests stream) ∧
    ∀ stream, Playing algorithm requests (some stream) →
      (∀ n, ∃ bytes, ((Request.fill n).perform.run generator).1 = .ok bytes ∧ bytes.length = n ∧
        ∀ i < n, bytes[i]? =
          some ((algorithm.keystream stream.seed).byteAt (stream.position + i))) ∧
      ∀ pieces : List Nat, (algorithm = .aes128Ctr ∨ ∀ piece ∈ pieces.dropLast, 4 ∣ piece) →
        ∃ parts after,
          (pieces.mapM fun n => (Request.fill n).perform).run generator = (.ok parts, after) ∧
          (Request.fill pieces.sum).perform.run generator = (.ok parts.flatten, after) := by
  intro generator
  have halgorithm : generator.algorithm = algorithm := Request.algorithm_behind requests _
  obtain ⟨running, hrunning⟩ := Playing.exists_playing algorithm requests
  refine ⟨?_, hrunning.run_fill_eq_unseeded_iff, ⟨running, hrunning⟩, ?_⟩
  · intro bytes
    rw [Request.run_perform_seed, halgorithm]
  · intro stream hplaying
    have hstream : generator.stream = some stream :=
      congrArg StreamGenerator.stream hplaying.behind_eq
    constructor
    · intro n
      rw [← halgorithm]
      exact Request.exists_run_fill_of_playing hstream n
    · intro pieces hpieces
      have hcut : ∀ piece ∈ pieces.dropLast, generator.algorithm.granularity ∣ piece := by
        rw [halgorithm]
        intro piece hpiece
        exact Request.granularity_dvd (hpieces.imp_right fun hwords => hwords piece hpiece)
      obtain ⟨parts, hrun, hparts⟩ := Request.exists_run_pieces hstream hcut
      refine ⟨parts, _, hrun, ?_⟩
      rw [hparts]
      exact Request.run_perform_fill_of_playing hstream pieces.sum

/-- Five bytes of ChaCha use up eight and a seed without bytes uses up none, so the next byte is the
ninth; fifteen bytes can be read in words and a rest. -/
theorem requests_follow_keystream_chacha20 : ∃ seed generator parts after bytes,
    Request.behind [.fill 3, .seed seed, .fill 5, .seed []] (StreamGenerator.new .chacha20) =
      generator ∧
    ([4, 8, 3].mapM fun n => (Request.fill n).perform).run generator = (.ok parts, after) ∧
    (Request.fill 15).perform.run generator = (.ok parts.flatten, after) ∧
    ((Request.fill 1).perform.run generator).1 = .ok bytes ∧
    bytes[0]? = some ((PrgAlgorithm.chacha20.keystream seed).byteAt 8) := by
  let seed : Bytes := List.replicate 32 7
  let requests : List Request := [.fill 3, .seed seed, .fill 5, .seed []]
  have hafter : ∀ request ∈ [Request.fill 5, .seed []], ¬request.Starts .chacha20 := by
    simp [Request.Starts, PrgAlgorithm.seedLength]
  have hsplit : requests = [.fill 3] ++ .seed seed :: [.fill 5, .seed []] := rfl
  have hlength : seed.length = PrgAlgorithm.chacha20.seedLength := List.length_replicate
  have hplaying : Playing .chacha20 requests (some ⟨seed, 8⟩) := .playing hsplit hlength hafter
  obtain ⟨_, _, _, hstream⟩ := requests_follow_keystream .chacha20 requests
  obtain ⟨hfill, hpieces⟩ := hstream ⟨seed, 8⟩ hplaying
  obtain ⟨parts, after, hparts, hwhole⟩ := hpieces [4, 8, 3] (.inr (by decide))
  obtain ⟨bytes, hbytes, _, hcontent⟩ := hfill 1
  exact ⟨seed, _, parts, after, bytes, rfl, hparts, hwhole, hbytes, hcontent 0 (by decide)⟩

end SeededGarbling
