import Mathlib.Data.List.FinRange
import Mathlib.Data.List.Nodup
import SeededGarbling.Proofs.Binding
import SeededGarbling.Proofs.Scratch

/-!
# Altered tables

A digest is taken of the tables put together. Nothing in these bytes tells where a table ends, and an
empty slot adds none of them. Still a change of a single slot shows, for what is before and what is
behind it stays in place and can be cancelled. Only an empty table can come and go unseen.

Where several slots change at once, the lengths have to be known. With every table as long as a
garbled one the bytes determine all slots, and then no table can be moved to another gate either.
-/

namespace SeededGarbling

/-- A slot that adds other bytes to the digest than before. -/
inductive SlotChange : Option Bytes → Option Bytes → Prop where
  /-- The table has other bytes, of any length. -/
  | rewritten {table other : Bytes} (h : other ≠ table) : SlotChange (some table) (some other)
  /-- A table that has bytes is taken out. -/
  | removed {table : Bytes} (h : table ≠ []) : SlotChange (some table) none
  /-- A table that has bytes is put into an empty slot. -/
  | supplied {table : Bytes} (h : table ≠ []) : SlotChange none (some table)

/-- An empty slot is read as an empty table, and then the two slots differ. -/
theorem slotChange_iff {before after : Option Bytes} :
    SlotChange before after ↔ after.getD [] ≠ before.getD [] := by
  constructor
  · intro h
    cases h with
    | rewritten h => exact h
    | removed h => exact h.symm
    | supplied h => exact h
  · intro h
    rcases before with _ | table <;> rcases after with _ | other
    · exact absurd rfl h
    · exact .supplied h
    · exact .removed h.symm
    · exact .rewritten h

namespace TableSet

variable {tables others : TableSet}

/-- The set with another content of one slot. -/
def withSlot (tables : TableSet) (gate : Nat) (slot : Option Bytes) : TableSet :=
  ⟨tables.slots.set gate slot⟩

/-- The bytes of the tables are those of all slots, in order. -/
theorem flatten_present (tables : TableSet) :
    tables.present.flatten = tables.slots.flatMap (·.getD []) := by
  obtain ⟨slots⟩ := tables
  simp only [present]
  induction slots with
  | nil => rfl
  | cons slot slots ih => cases slot <;> simpa using ih

/-- One slot stands between the bytes of the slots before it and those of the slots behind it. -/
theorem flatten_present_withSlot {gate : Nat} (h : gate < tables.slots.length)
    (slot : Option Bytes) :
    (tables.withSlot gate slot).present.flatten =
      (tables.slots.take gate).flatMap (·.getD []) ++
        (slot.getD [] ++ (tables.slots.drop (gate + 1)).flatMap (·.getD [])) := by
  rw [flatten_present, withSlot, List.set_eq_take_cons_drop slot h, List.flatMap_append,
    List.flatMap_cons]

/-- To give a slot the content that it has is no change. -/
theorem withSlot_getElem {gate : Nat} (h : gate < tables.slots.length) :
    tables.withSlot gate tables.slots[gate] = tables := by
  rw [withSlot, List.set_getElem_self]

/-- Just the changes that add other bytes are seen in the bytes of all tables. -/
theorem flatten_present_withSlot_ne_iff {gate : Nat} (h : gate < tables.slots.length)
    (slot : Option Bytes) :
    (tables.withSlot gate slot).present.flatten ≠ tables.present.flatten ↔
      SlotChange tables.slots[gate] slot := by
  have hbefore := tables.flatten_present_withSlot h tables.slots[gate]
  rw [withSlot_getElem h] at hbefore
  rw [slotChange_iff, flatten_present_withSlot h, hbefore, Ne, List.append_cancel_left_eq,
    List.append_cancel_right_eq]

/-- Every slot has a table, as long as a garbled one. -/
structure Regular (tables : TableSet) : Prop where
  /-- No slot is empty. -/
  complete : tables.isComplete = true
  /-- The tables have the length of garbled ones. -/
  uniform : tables.Uniform

/-- So whatever slot is looked at, there is a table in it. -/
theorem Regular.isSome_of_mem (h : tables.Regular) : ∀ slot ∈ tables.slots, slot.isSome = true :=
  List.all_eq_true.mp h.complete

/-- The bytes of such tables determine each of them. -/
theorem Regular.eq_of_flatten_eq (h : tables.Regular) (h' : others.Regular)
    (hsize : tables.size = others.size)
    (hflatten : tables.present.flatten = others.present.flatten) : tables = others :=
  h.uniform.eq_of_flatten_eq h'.uniform h.isSome_of_mem h'.isSome_of_mem hsize hflatten

/-- The same slots in another order: every gate has that of the gate which the order names for it. -/
def reordered (tables : TableSet) (order : Equiv.Perm (Fin tables.slots.length)) : TableSet :=
  ⟨List.ofFn fun gate => tables.slots[order gate]⟩

/-- No slot is lost or doubled. -/
theorem perm_slots_reordered (tables : TableSet) (order : Equiv.Perm (Fin tables.slots.length)) :
    (tables.reordered order).slots.Perm tables.slots := by
  have hperm := order.ofFn_comp_perm tables.slots.get
  rw [List.ofFn_get] at hperm
  exact hperm

/-- At each gate stands the table that was at the gate named for it. -/
theorem getElem?_slots_reordered (order : Equiv.Perm (Fin tables.slots.length))
    (gate : Fin tables.slots.length) :
    (tables.reordered order).slots[gate.val]? = some tables.slots[order gate] := by
  rw [reordered, List.getElem?_ofFn, dif_pos gate.isLt]

/-- Where all tables are different, every order but the present one gives some gate another table. -/
theorem exists_moved (h : tables.slots.Nodup) {order : Equiv.Perm (Fin tables.slots.length)}
    (horder : order ≠ Equiv.refl _) :
    ∃ gate, tables.slots[order gate] ≠ tables.slots[gate] := by
  by_contra hmoved
  apply horder
  apply Equiv.ext
  intro gate
  have hslot : tables.slots[order gate] = tables.slots[gate] := by
    by_contra hne
    exact hmoved ⟨gate, hne⟩
  exact Fin.ext (h.getElem_inj_iff.mp hslot)

/-- And then it is another set of tables. -/
theorem reordered_ne {order : Equiv.Perm (Fin tables.slots.length)}
    {gate : Fin tables.slots.length} (h : tables.slots[order gate] ≠ tables.slots[gate]) :
    tables.reordered order ≠ tables := by
  intro heq
  have hmoved := tables.getElem?_slots_reordered order gate
  rw [heq] at hmoved
  apply h
  simpa using hmoved.symm

/-- An order keeps what holds of every slot. -/
theorem Regular.reordered (h : tables.Regular) (order : Equiv.Perm (Fin tables.slots.length)) :
    (tables.reordered order).Regular := by
  have hperm := tables.perm_slots_reordered order
  constructor
  · rw [isComplete, hperm.all_eq]
    exact h.complete
  · intro table htable
    exact h.uniform table ((hperm.filterMap id).mem_iff.mp htable)

end TableSet

/-- Two updates absorb what one does with both byte strings. -/
theorem Hasher.update_update (hasher : Hasher) (first second : Bytes) :
    (hasher.update first).update second = hasher.update (first ++ second) := by
  have hpending : ((hasher.update first).update second).pending =
      (hasher.update (first ++ second)).pending := by
    apply Array.toList_inj.mp
    simp
  simp only [update] at hpending ⊢
  rw [hpending]

/-- So where one table ends and the next begins is lost. -/
theorem Hasher.updateAll_eq_update (hasher : Hasher) (pieces : List Bytes) :
    hasher.updateAll pieces = hasher.update pieces.flatten := by
  induction pieces generalizing hasher with
  | nil => simp [updateAll, update]
  | cons piece pieces ih =>
    rw [List.flatten_cons, ← update_update, ← ih]
    rfl

/-- Of two byte strings that differ, the hasher has different digests behind what is pending. -/
def Hasher.Separates (hasher : Hasher) (first second : Bytes) : Prop :=
  first ≠ second → (hasher.update first).peek ≠ (hasher.update second).peek

namespace Audit

variable {hasher : Hasher} {tables presented : TableSet}

/-- The digest of tables is that of their bytes, put together. -/
theorem hashTables_eq_finalize (hasher : Hasher) (tables : TableSet) :
    hashTables hasher tables = (hasher.update tables.present.flatten).finalize := by
  rw [hashTables, Hasher.updateAll_eq_update]

/-- Whether tables pass the check against the digest that other tables have, where both digests are
taken by a hasher in the same state. -/
def accepts (hasher : Hasher) (presented tables : TableSet) : Bool :=
  (checkTables hasher presented (hashTables hasher tables).1).1

/-- They pass just if the digests behind the pending bytes agree. -/
theorem accepts_eq_decide (hasher : Hasher) (presented tables : TableSet) :
    accepts hasher presented tables = decide ((hasher.update tables.present.flatten).peek =
      (hasher.update presented.present.flatten).peek) := by
  simp only [accepts, checkTables, hashTables_eq_finalize, Hasher.finalize, digestsMatch_eq_decide]

/-- Other bytes are refused by a hasher that can tell them apart. -/
theorem accepts_eq_false_of_flatten_ne
    (hne : presented.present.flatten ≠ tables.present.flatten)
    (hseparates : hasher.Separates presented.present.flatten tables.present.flatten) :
    accepts hasher presented tables = false := by
  rw [accepts_eq_decide, decide_eq_false_iff_not]
  exact (hseparates hne).symm

/-- So are other tables, if both sets are regular. -/
theorem accepts_eq_false_of_ne (h : tables.Regular) (h' : presented.Regular)
    (hsize : presented.size = tables.size) (hne : presented ≠ tables)
    (hseparates : hasher.Separates presented.present.flatten tables.present.flatten) :
    accepts hasher presented tables = false := by
  apply accepts_eq_false_of_flatten_ne _ hseparates
  intro hflatten
  exact hne (h'.eq_of_flatten_eq h hsize hflatten)

/-- Tables are checked by their bytes, put together behind what is pending, and pass against their own
digest. Every change of one slot shows in these bytes, but for an empty table that comes or goes.
Where the tables are regular, every other regular set of as many tables shows, an order that gives
some gate another table included. What shows is refused. -/
theorem accepts_shows_alterations (hasher : Hasher) (tables : TableSet) :
    hashTables hasher tables = (hasher.update tables.present.flatten).finalize ∧
      accepts hasher tables tables = true ∧
      (∀ (gate : Nat) (h : gate < tables.slots.length) (slot : Option Bytes),
        ((tables.withSlot gate slot).present.flatten ≠ tables.present.flatten ↔
          SlotChange tables.slots[gate] slot) ∧
        (SlotChange tables.slots[gate] slot →
          hasher.Separates (tables.withSlot gate slot).present.flatten tables.present.flatten →
          accepts hasher (tables.withSlot gate slot) tables = false)) ∧
      (tables.Regular →
        (∀ others : TableSet, others.Regular → others.size = tables.size →
          (others.present.flatten = tables.present.flatten → others = tables) ∧
          (others ≠ tables →
            hasher.Separates others.present.flatten tables.present.flatten →
            accepts hasher others tables = false)) ∧
        ∀ (order : Equiv.Perm (Fin tables.slots.length)) (gate : Fin tables.slots.length),
          tables.slots[order gate] ≠ tables.slots[gate] →
          hasher.Separates (tables.reordered order).present.flatten tables.present.flatten →
          accepts hasher (tables.reordered order) tables = false) := by
  refine ⟨hashTables_eq_finalize hasher tables, ?_, ?_, ?_⟩
  · rw [accepts_eq_decide, decide_eq_true_eq]
  · intro gate h slot
    have hshows := TableSet.flatten_present_withSlot_ne_iff h slot
    refine ⟨hshows, ?_⟩
    intro hchange hseparates
    exact accepts_eq_false_of_flatten_ne (hshows.mpr hchange) hseparates
  · intro hregular
    constructor
    · intro others hothers hsize
      refine ⟨hothers.eq_of_flatten_eq hregular hsize, ?_⟩
      intro hne hseparates
      exact accepts_eq_false_of_ne hregular hothers hsize hne hseparates
    · intro order gate hmoved hseparates
      have hsize : (tables.reordered order).size = tables.size :=
        (tables.perm_slots_reordered order).length_eq
      have hne : tables.reordered order ≠ tables := TableSet.reordered_ne hmoved
      exact accepts_eq_false_of_ne hregular (hregular.reordered order) hsize hne hseparates

/-- A table is put into an empty slot beside a short one, and two different garbled tables change
places: both are refused. -/
theorem accepts_shows_alterations_pair :
    let mixed : TableSet := ⟨[some [1, 2], none]⟩
    let tables := TableSet.ofTables [List.replicate tableLength 1, List.replicate tableLength 2]
    accepts (.new .blake3) (mixed.withSlot 1 (some [3])) mixed = false ∧
      accepts (.new .blake3) tables tables = true ∧
      accepts (.new .blake3) (tables.reordered Fin.revPerm) tables = false := by
  intro mixed tables
  obtain ⟨_, _, hslot, _⟩ := accepts_shows_alterations (.new .blake3) mixed
  obtain ⟨_, hhonest, _, hregular⟩ := accepts_shows_alterations (.new .blake3) tables
  refine ⟨?_, hhonest, ?_⟩
  · apply (hslot 1 (by decide) (some [3])).2
    · exact .supplied (by decide)
    · intro _
      decide +kernel
  · have htables : tables.Regular := by
      refine ⟨rfl, ?_⟩
      unfold TableSet.Uniform
      decide
    have hreversed : Fin.revPerm ≠ Equiv.refl (Fin tables.slots.length) := by
      intro heq
      exact absurd (Equiv.congr_fun heq ⟨0, by decide⟩) (by decide)
    obtain ⟨gate, hmoved⟩ := TableSet.exists_moved (by decide) hreversed
    apply (hregular htables).2 _ gate hmoved
    intro _
    decide +kernel

end Audit

end SeededGarbling
