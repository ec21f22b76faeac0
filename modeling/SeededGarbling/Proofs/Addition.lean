import Mathlib.Data.Nat.Digits.Defs
import SeededGarbling.Circuit.Adder
import SeededGarbling.Proofs.Evaluator

/-!
# Adders add

Bit after bit, an adder drives its sum wires and its carry wires with the bits of written addition.
The invariant is that the operands are still there, that every sum wire so far holds its bit, and
that the last carry wire holds the carry: the gates of a bit drive wires behind all of these. What the
bits add up to is a matter of numbers alone.
-/

namespace SeededGarbling

open Traversal

@[simp] theorem TruthTable.eval_xor (a b : Bool) : TruthTable.xor.eval a b = (a ^^ b) := by
  revert a b
  decide

@[simp] theorem TruthTable.eval_and (a b : Bool) : TruthTable.and.eval a b = (a && b) := by
  revert a b
  decide

namespace Adder

/-- The carry into a bit, in written addition. -/
def carryBit (a b : Nat) (carry : Bool) : Nat → Bool
  | 0 => carry
  | i + 1 =>
    (a.testBit i && b.testBit i) ^^ ((a.testBit i ^^ b.testBit i) && carryBit a b carry i)

/-- The sum without the carry out of it, in written addition. -/
def sumBit (a b : Nat) (carry : Bool) (i : Nat) : Bool :=
  a.testBit i ^^ b.testBit i ^^ carryBit a b carry i

/-- One column of written addition. -/
theorem sumBit_add_two_mul_carryBit (a b : Nat) (carry : Bool) (i : Nat) :
    (sumBit a b carry i).toNat + 2 * (carryBit a b carry (i + 1)).toNat =
      (a.testBit i).toNat + (b.testBit i).toNat + (carryBit a b carry i).toNat := by
  simp only [sumBit, carryBit]
  cases a.testBit i <;> cases b.testBit i <;> cases carryBit a b carry i <;> rfl

/-- The columns so far hold the sum of the bits so far. -/
theorem ofDigits_sumBits (a b : Nat) (carry : Bool) (i : Nat) :
    Nat.ofDigits 2 ((List.range i).map fun j => (sumBit a b carry j).toNat) +
        2 ^ i * (carryBit a b carry i).toNat =
      a % 2 ^ i + b % 2 ^ i + carry.toNat := by
  induction i with
  | zero => simp [carryBit, Nat.mod_one]
  | succ i ih =>
    have hcolumn := sumBit_add_two_mul_carryBit a b carry i
    have hdigits : Nat.ofDigits 2 ((List.range (i + 1)).map fun j => (sumBit a b carry j).toNat) =
        Nat.ofDigits 2 ((List.range i).map fun j => (sumBit a b carry j).toNat) +
          2 ^ i * (sumBit a b carry i).toNat := by
      rw [List.range_succ, List.map_append, Nat.ofDigits_append, List.length_map, List.length_range]
      simp
    have ha : a % 2 ^ (i + 1) = a % 2 ^ i + 2 ^ i * (a.testBit i).toNat := by
      rw [Nat.mod_pow_succ, Nat.toNat_testBit]
    have hb : b % 2 ^ (i + 1) = b % 2 ^ i + 2 ^ i * (b.testBit i).toNat := by
      rw [Nat.mod_pow_succ, Nat.toNat_testBit]
    calc
      _ = Nat.ofDigits 2 ((List.range i).map fun j => (sumBit a b carry j).toNat) +
            2 ^ i * ((sumBit a b carry i).toNat + 2 * (carryBit a b carry (i + 1)).toNat) := by
          rw [hdigits]
          ring
      _ = Nat.ofDigits 2 ((List.range i).map fun j => (sumBit a b carry j).toNat) +
            2 ^ i * (carryBit a b carry i).toNat +
            2 ^ i * ((a.testBit i).toNat + (b.testBit i).toNat) := by
          rw [hcolumn]
          ring
      _ = a % 2 ^ (i + 1) + b % 2 ^ (i + 1) + carry.toNat := by
          rw [ih, ha, hb]
          ring

section Wires

variable {values : WireMap Bool}

/-- A wire keeps its value while wires with other numbers are driven. -/
theorem getElem?_insert_ofNat_of_ne {j k : Nat} (hne : j ≠ k) (hj : j < 2 ^ 32) (hk : k < 2 ^ 32)
    (value : Bool) :
    (values.insert (UInt32.ofNat j) value)[UInt32.ofNat k]? = values[UInt32.ofNat k]? := by
  have hwire : UInt32.ofNat j ≠ UInt32.ofNat k := by
    intro h
    apply hne
    rw [← UInt32.toNat_ofNat_of_lt' hj, ← UInt32.toNat_ofNat_of_lt' hk, h]
  rw [Std.ExtTreeMap.getElem?_insert, if_neg]
  rw [Std.LawfulEqCmp.compare_eq_iff_eq]
  exact hwire

/-- The gates of a bit drive its sum wire and the next carry wire as a full adder does, and leave
all wires up to the carry wire alone. -/
theorem evaluate_bitGates {n i : Nat} {a b carry : Bool} (hi : i < n)
    (hsize : carryWire n (i + 1) < 2 ^ 32)
    (ha : values[UInt32.ofNat i]? = some a) (hb : values[UInt32.ofNat (n + i)]? = some b)
    (hcarry : values[UInt32.ofNat (carryWire n i)]? = some carry) :
    ∃ after, (bitGates n i).foldlM Gate.evaluate values = some after ∧
      after[UInt32.ofNat (carryWire n i + 2)]? = some (a ^^ b ^^ carry) ∧
      after[UInt32.ofNat (carryWire n (i + 1))]? = some ((a && b) ^^ ((a ^^ b) && carry)) ∧
      ∀ k ≤ carryWire n i, after[UInt32.ofNat k]? = values[UInt32.ofNat k]? := by
  have hnext : carryWire n (i + 1) = carryWire n i + 5 := by
    unfold carryWire
    omega
  have hbefore : n + i < carryWire n i := by
    unfold carryWire
    omega
  unfold bitGates
  dsimp only
  rw [hnext] at hsize ⊢
  generalize carryWire n i = wire at *
  -- Each gate finds its operands behind the wires that were driven since.
  simp (disch := omega) only [List.foldlM_cons, List.foldlM_nil, Gate.evaluate, ha, hb, hcarry,
    getElem?_insert_ofNat_of_ne, Std.ExtTreeMap.getElem?_insert_self, Option.bind_eq_bind,
    Option.bind_some, Option.pure_def, TruthTable.eval_xor, TruthTable.eval_and]
  refine ⟨_, rfl, ?_, ?_, ?_⟩
  · simp (disch := omega) only [getElem?_insert_ofNat_of_ne, Std.ExtTreeMap.getElem?_insert_self]
  · simp only [Std.ExtTreeMap.getElem?_insert_self]
  · intro k hk
    simp (disch := omega) only [getElem?_insert_ofNat_of_ne]

end Wires

/-- The values that the inputs of an adder are given: the bits of one number, then those of another,
then a carry. -/
def operands (n a b : Nat) (carry : Bool) (wire : Wire) : Bool :=
  if wire.toNat < n then a.testBit wire.toNat
  else if wire.toNat < 2 * n then b.testBit (wire.toNat - n)
  else carry

/-- The adder has reached a bit: the operands are there, all sum wires before it hold their bits, and
its carry wire holds the carry. -/
structure Reached (n a b : Nat) (carry : Bool) (i : Nat) (values : WireMap Bool) : Prop where
  /-- The bits of the first operand. -/
  left : ∀ j < n, values[UInt32.ofNat j]? = some (a.testBit j)
  /-- The bits of the second operand. -/
  right : ∀ j < n, values[UInt32.ofNat (n + j)]? = some (b.testBit j)
  /-- The bits of the sum. -/
  sums : ∀ j < i, values[UInt32.ofNat (carryWire n j + 2)]? = some (sumBit a b carry j)
  /-- The carry. -/
  carry : values[UInt32.ofNat (carryWire n i)]? = some (carryBit a b carry i)

namespace Reached

variable {n a b i : Nat} {carry : Bool} {values : WireMap Bool}

/-- The inputs reach the first bit. -/
theorem assign (hsize : carryWire n n < 2 ^ 32) (a b : Nat) (carry : Bool) :
    Reached n a b carry 0 ((circuit n).assign (operands n a b carry)) := by
  have hsmall : 2 * n < 2 ^ 32 := by
    unfold carryWire at hsize
    omega
  have hinput : ∀ j ≤ 2 * n, ((circuit n).assign (operands n a b carry))[UInt32.ofNat j]? =
      some (operands n a b carry (UInt32.ofNat j)) := by
    intro j hj
    rw [Circuit.assign, getElem?_ofList_map, if_pos]
    exact List.mem_map_of_mem (List.mem_range.mpr (Nat.lt_succ_of_le hj))
  have htoNat : ∀ j ≤ 2 * n, (UInt32.ofNat j).toNat = j :=
    fun j hj => UInt32.toNat_ofNat_of_lt' (by exact Nat.lt_of_le_of_lt hj hsmall)
  constructor
  · intro j hj
    rw [hinput j (by omega), operands, htoNat j (by omega), if_pos hj]
  · intro j hj
    rw [hinput _ (by omega), operands, htoNat _ (by omega), if_neg (by omega), if_pos (by omega),
      Nat.add_sub_cancel_left]
  · intro j hj
    omega
  · rw [carryWire, hinput _ (by omega), operands, htoNat _ (by omega), if_neg (by omega),
      if_neg (by omega)]
    rfl

/-- The gates of a bit reach the next one. -/
theorem step (h : Reached n a b carry i values) (hi : i < n) (hsize : carryWire n n < 2 ^ 32) :
    ∃ after, (bitGates n i).foldlM Gate.evaluate values = some after ∧
      Reached n a b carry (i + 1) after := by
  have hnext : carryWire n (i + 1) < 2 ^ 32 := by
    unfold carryWire at hsize ⊢
    omega
  obtain ⟨after, hrun, hsum, hcarry, hframe⟩ :=
    evaluate_bitGates hi hnext (h.left i hi) (h.right i hi) h.carry
  refine ⟨after, hrun, ?_, ?_, ?_, hcarry⟩
  · intro j hj
    rw [hframe j (by unfold carryWire; omega)]
    exact h.left j hj
  · intro j hj
    rw [hframe _ (by unfold carryWire; omega)]
    exact h.right j hj
  · intro j hj
    rcases Nat.lt_succ_iff_lt_or_eq.mp hj with hj | rfl
    · rw [hframe _ (by unfold carryWire; omega)]
      exact h.sums j hj
    · exact hsum

/-- The gates of the first bits reach the bit behind them. -/
theorem run (hsize : carryWire n n < 2 ^ 32) (a b : Nat) (carry : Bool) (hi : i ≤ n) :
    ∃ after, ((List.range i).flatMap (bitGates n)).foldlM Gate.evaluate
        ((circuit n).assign (operands n a b carry)) = some after ∧
      Reached n a b carry i after := by
  induction i with
  | zero => exact ⟨_, rfl, assign hsize a b carry⟩
  | succ i ih =>
    obtain ⟨before, hbefore, hreached⟩ := ih (Nat.le_of_succ_le hi)
    obtain ⟨after, hafter, hnext⟩ := hreached.step hi hsize
    refine ⟨after, ?_, hnext⟩
    rw [List.range_succ, List.flatMap_append, List.foldlM_append, hbefore]
    simp only [List.flatMap_singleton]
    exact hafter

/-- Behind the last bit, the outputs hold the sum bits and the last carry. -/
theorem mapM_outputs (h : Reached n a b carry n values) :
    (circuit n).outputs.mapM (fun wire => values[wire]?) =
      some ((List.range n).map (sumBit a b carry) ++ [carryBit a b carry n]) := by
  have hsums : ((List.range n).map fun j => UInt32.ofNat (carryWire n j + 2)).mapM
      (fun wire => values[wire]?) = some ((List.range n).map (sumBit a b carry)) := by
    rw [List.mapM_map]
    exact mapM_eq_pure_map fun j hj => h.sums j (List.mem_range.mp hj)
  have hwires : (circuit n).outputs =
      (List.range n).map (fun j => UInt32.ofNat (carryWire n j + 2)) ++
        [UInt32.ofNat (carryWire n n)] := rfl
  rw [hwires, List.mapM_append, hsums]
  simp [h.carry]

end Reached

/-- An adder of any width that is supported adds any two numbers of that width and a carry: it can be
evaluated, and its outputs, least significant first, are the digits of the sum. -/
theorem evaluate_adds {n a b : Nat} (hn : n ≤ maximumBits) (ha : a < 2 ^ n) (hb : b < 2 ^ n)
    (carry : Bool) :
    ∃ adder values bits, ofBits n = .ok adder ∧
      adder.evaluate (adder.assign (operands n a b carry)) = some values ∧
      adder.outputs.mapM (fun wire => values[wire]?) = some bits ∧ bits.length = n + 1 ∧
      Nat.ofDigits 2 (bits.map Bool.toNat) = a + b + carry.toNat := by
  have hsize : carryWire n n < 2 ^ 32 := by
    unfold maximumBits at hn
    unfold carryWire
    omega
  obtain ⟨values, hrun, hreached⟩ := Reached.run hsize a b carry (Nat.le_refl n)
  refine ⟨circuit n, values, _, if_neg (Nat.not_lt.mpr hn), hrun, hreached.mapM_outputs, ?_, ?_⟩
  · simp
  · have hsum := ofDigits_sumBits a b carry n
    rw [Nat.mod_eq_of_lt ha, Nat.mod_eq_of_lt hb] at hsum
    rw [← hsum, List.map_append, Nat.ofDigits_append]
    simp [Function.comp_def]

/-- Five and six and a carry are twelve, on three bits and a carry out. -/
theorem evaluate_adds_five_six :
    ∃ adder values bits, ofBits 3 = .ok adder ∧
      adder.evaluate (adder.assign (operands 3 5 6 true)) = some values ∧
      adder.outputs.mapM (fun wire => values[wire]?) = some bits ∧ bits.length = 4 ∧
      Nat.ofDigits 2 (bits.map Bool.toNat) = 12 :=
  evaluate_adds (by decide) (by decide) (by decide) true

end Adder

end SeededGarbling
