import SeededGarbling.KeyedFunction

/-!
# Key expansion follows its definition

An expansion is the beginning of a sequence of numbered blocks, each of which is the authentication code
of the one before it, the context and its own number. A buffer is filled with it chunk by chunk, the
last block cut to what is left. There are as many blocks as one byte can number, so no number wraps.
-/

namespace SeededGarbling.Hkdf

/-- The blocks are numbered as they should: there is nothing before the first one, and each of the next
255 is the code of the one before it, the context, and the byte with its number. -/
structure Numbered (key info : Bytes) (blocks : Nat → Bytes) : Prop where
  /-- Nothing comes before the first block. -/
  zero : blocks 0 = []
  /-- The number of a block is a byte. -/
  succ : ∀ i < 255, ∃ number : UInt8, number.toNat = i + 1 ∧
    blocks (i + 1) = HmacSha256.mac key (blocks i ++ info ++ [number])

/-- The first blocks, put together. -/
def joined (blocks : Nat → Bytes) (count : Nat) : Bytes :=
  (List.range' 1 count).flatMap blocks

/-- The answers to the requests for more and more bytes are the beginnings of one sequence. -/
structure Follows (blocks : Nat → Bytes) (answer : Nat → Except PrimitiveError Bytes) : Prop where
  /-- More than 255 blocks are refused. -/
  refused : ∀ n, answer n = .error (.outputTooLong n 8160) ↔ 8160 < n
  /-- Up to there, the answer is the beginning of as many blocks as it takes. -/
  answered : ∀ n ≤ 8160, answer n = .ok ((joined blocks ((n + 31) / 32)).take n)
  /-- So a longer answer begins with a shorter one. -/
  begins : ∀ m n, m ≤ n → n ≤ 8160 → ∃ short long, answer m = .ok short ∧ answer n = .ok long ∧
    short <+: long

/-- The block with a number. -/
def block (key info : Bytes) : Nat → Bytes
  | 0 => []
  | i + 1 => HmacSha256.mac key (block key info i ++ info ++ [UInt8.ofNat (i + 1)])

variable {key info : Bytes} {blocks : Nat → Bytes}

/-- These blocks are numbered as they should. -/
theorem numbered_block (key info : Bytes) : Numbered key info (block key info) := by
  constructor
  · rfl
  · intro i hi
    exact ⟨UInt8.ofNat (i + 1), UInt8.toNat_ofNat_of_lt' (by change i + 1 < 256; omega), rfl⟩

/-- No others are, as far as there are numbers. -/
theorem Numbered.eq_block (h : Numbered key info blocks) {i : Nat} (hi : i ≤ 255) :
    blocks i = block key info i := by
  induction i with
  | zero => exact h.zero
  | succ i ih =>
    obtain ⟨number, hnumber, hblock⟩ := h.succ i hi
    have hbyte : number = UInt8.ofNat (i + 1) := by
      rw [← hnumber, UInt8.ofNat_toNat]
    rw [hblock, ih (Nat.le_of_succ_le hi), hbyte]
    rfl

/-- So it does not matter which blocks are put together. -/
theorem Numbered.joined_eq (h : Numbered key info blocks) {count : Nat} (hcount : count ≤ 255) :
    joined blocks count = joined (block key info) count := by
  unfold joined
  rw [List.flatMap_def, List.flatMap_def]
  congr 1
  apply List.map_congr_left
  intro i hi
  rw [List.mem_range'_1] at hi
  exact h.eq_block (by omega)

/-- All blocks are equally long. -/
theorem length_joined (key info : Bytes) (count : Nat) :
    (joined (block key info) count).length = count * blockLength := by
  have hlengths : ∀ i ∈ List.range' 1 count, (block key info i).length = blockLength := by
    intro i hi
    obtain ⟨j, rfl⟩ : ∃ j, i = j + 1 := ⟨i - 1, by rw [List.mem_range'_1] at hi; omega⟩
    exact HmacSha256.length_mac _ _
  unfold joined
  rw [List.length_flatMap, List.map_congr_left hlengths, List.map_const', List.length_range',
    List.sum_replicate_nat]

/-- More blocks begin with fewer. -/
theorem joined_add (blocks : Nat → Bytes) (count more : Nat) :
    ∃ rest, joined blocks (count + more) = joined blocks count ++ rest := by
  refine ⟨(List.range' (1 + count) more).flatMap blocks, ?_⟩
  rw [joined, ← List.range'_append_1, List.flatMap_append, joined]

/-- The chain behind a block consists of the blocks with the next numbers. -/
theorem chain_eq_flatMap (key info : Bytes) (count i : Nat) :
    chain key info count (i + 1) (block key info i) =
      (List.range' (i + 1) count).flatMap (block key info) := by
  induction count generalizing i with
  | zero => rfl
  | succ count ih =>
    rw [List.range'_succ, List.flatMap_cons, ← ih (i + 1)]
    rfl

/-- What is expanded is the beginning of the blocks that it takes. -/
theorem output_eq_take (key info : Bytes) (n : Nat) :
    output key info n = (joined (block key info) ((n + 31) / blockLength)).take n := by
  rw [output, joined]
  exact congrArg (List.take n) (chain_eq_flatMap key info _ 0)

/-- More bytes begin with fewer. -/
theorem output_prefix_output {m n : Nat} (h : m ≤ n) (key info : Bytes) :
    output key info m <+: output key info n := by
  have hcount : (m + 31) / blockLength ≤ (n + 31) / blockLength :=
    Nat.div_le_div_right (Nat.add_le_add_right h 31)
  obtain ⟨more, hmore⟩ := Nat.exists_eq_add_of_le hcount
  obtain ⟨rest, hrest⟩ := joined_add (block key info) ((m + 31) / blockLength) more
  have hcovered : m ≤ (joined (block key info) ((m + 31) / blockLength)).length := by
    rw [length_joined]
    unfold blockLength
    omega
  have hshort : output key info m = (joined (block key info) ((n + 31) / blockLength)).take m := by
    rw [output_eq_take, hmore, hrest, List.take_append_of_le_length hcovered]
  rw [hshort, output_eq_take]
  exact List.take_prefix_take_left h

/-- Chunks that a buffer is cut into are filled with the beginning of a chain. -/
theorem flatten_fillChunks (key info : Bytes) {count : Nat} {buffer : Bytes}
    (h : buffer.length ≤ count * blockLength) (index : Nat) (previous : Option Bytes) :
    (fillChunks key info index previous (Bytes.blocks blockLength count buffer)).flatten =
      (chain key info count (index + 1) (previous.getD [])).take buffer.length := by
  induction count generalizing buffer index previous with
  | zero =>
    rw [Nat.zero_mul, Nat.le_zero] at h
    rw [h]
    rfl
  | succ count ih =>
    have hrest : (buffer.drop blockLength).length ≤ count * blockLength := by
      rw [List.length_drop]
      rw [Nat.succ_mul] at h
      omega
    have hcut : ∀ code : Bytes, code.length = blockLength →
        code.take (buffer.take blockLength).length = code.take buffer.length := by
      intro code hcode
      rw [List.take_eq_take_iff, List.length_take, hcode]
      omega
    rw [Bytes.blocks, fillChunks, List.flatten_cons, ih hrest, chain, List.take_append,
      hcut _ (HmacSha256.length_mac _ _), HmacSha256.length_mac, List.length_drop]
    rfl

/-- Filling a buffer leaves in it what the key expands to; a buffer that is too long is left as it was. -/
theorem expandInPlace_eq (key info buffer : Bytes) :
    expandInPlace key info buffer = if buffer.length ≤ 8160
      then (.ok (), output key info buffer.length)
      else (.error (.outputTooLong buffer.length 8160), buffer) := by
  have hmaximum : maximumLength = 8160 := rfl
  unfold expandInPlace
  rw [hmaximum]
  by_cases hfits : buffer.length ≤ 8160
  · have hcovered : buffer.length ≤ (buffer.length + 31) / blockLength * blockLength := by
      unfold blockLength
      omega
    rw [if_pos hfits, if_neg (Nat.not_lt.mpr hfits)]
    exact congrArg (Prod.mk _) (flatten_fillChunks key info hcovered 0 none)
  · rw [if_neg hfits, if_pos (Nat.lt_of_not_le hfits)]

/-- The answers of an expansion follow the blocks. -/
theorem Numbered.follows (h : Numbered key info blocks) : Follows blocks (expand key info) := by
  have hrefused : ∀ n, 8160 < n → expand key info n = .error (.outputTooLong n 8160) :=
    fun n hn => if_pos hn
  have houtput : ∀ n ≤ 8160, expand key info n = .ok (output key info n) :=
    fun n hn => if_neg (Nat.not_lt.mpr hn)
  constructor
  case refused =>
    intro n
    by_cases hn : 8160 < n
    · exact iff_of_true (hrefused n hn) hn
    · rw [houtput n (Nat.le_of_not_lt hn)]
      exact iff_of_false (by simp) hn
  case answered =>
    intro n hn
    rw [houtput n hn, output_eq_take, h.joined_eq (by omega)]
    rfl
  case begins =>
    intro m n hm hn
    exact ⟨_, _, houtput m (Nat.le_trans hm hn), houtput n hn, output_prefix_output hm key info⟩

/-- A keyed function answers as an expansion does. -/
theorem map_toList_hmacSha256Keyed (key info : Bytes) (n : Nat) :
    (PrfAlgorithm.hmacSha256Keyed key info n).map Vector.toList = expand key info n := by
  unfold PrfAlgorithm.hmacSha256Keyed expand
  by_cases hn : n > maximumLength
  · rw [if_pos hn, if_pos hn]
    rfl
  · rw [if_neg hn, if_neg hn]
    exact congrArg Except.ok (Bytes.toList_toVector _ _)

/-- Whatever the key and the context: requests for more than 8160 bytes are refused and leave the buffer
as it was. Any other is answered with the beginning of the numbered blocks, a shorter one with the
beginning of what answers a longer one, and the buffer is filled with the answer. The keyed function
that is made from the key does the same. -/
theorem expand_follows_definition (h : Numbered key info blocks) :
    Follows blocks (expand key info) ∧
    (∀ buffer, expandInPlace key info buffer = if buffer.length ≤ 8160
      then (.ok (), (joined blocks ((buffer.length + 31) / 32)).take buffer.length)
      else (.error (.outputTooLong buffer.length 8160), buffer)) ∧
    (key.length = 32 → ∃ compute, PrfAlgorithm.hmacSha256.keyed key = .ok compute ∧
      Follows blocks fun n => (compute info n).map Vector.toList) := by
  refine ⟨h.follows, ?_, ?_⟩
  · intro buffer
    rw [expandInPlace_eq]
    by_cases hlong : buffer.length ≤ 8160
    · rw [if_pos hlong, if_pos hlong, output_eq_take, h.joined_eq (by omega)]
      rfl
    · rw [if_neg hlong, if_neg hlong]
  · intro hkey
    refine ⟨PrfAlgorithm.hmacSha256Keyed key, if_pos hkey, ?_⟩
    simp only [map_toList_hmacSha256Keyed]
    exact h.follows

/-- Forty bytes take two blocks, of which the second is cut; one byte more than there can be is refused. -/
theorem expand_follows_definition_forty : ∃ compute,
    PrfAlgorithm.hmacSha256.keyed (List.replicate 32 7) = .ok compute ∧
    (compute [1] 40).map Vector.toList =
      .ok ((joined (block (List.replicate 32 7) [1]) 2).take 40) ∧
    expandInPlace (List.replicate 32 7) [1] (List.replicate 8161 0) =
      (.error (.outputTooLong 8161 8160), List.replicate 8161 0) := by
  obtain ⟨_, hbuffer, hcompute⟩ := expand_follows_definition (numbered_block (List.replicate 32 7) [1])
  obtain ⟨compute, hkeyed, hfollows⟩ := hcompute List.length_replicate
  refine ⟨compute, hkeyed, hfollows.answered 40 (by decide), ?_⟩
  rw [hbuffer, List.length_replicate]
  rfl

end SeededGarbling.Hkdf
