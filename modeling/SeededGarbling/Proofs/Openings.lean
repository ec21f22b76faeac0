import Mathlib.Data.List.Perm.Subperm
import SeededGarbling.Exchange.Opening
import SeededGarbling.Proofs.Traversal

/-!
# Which openings fit

The checks before an audit compare sizes, sorted lists and memberships. Together they decide that an
opening reveals the seeds of exactly the instances to be checked and the garbled circuits of exactly
the others: indices that are distinct, small enough and numerous enough leave none out.
-/

namespace SeededGarbling

open Traversal

/-- Distinct indices below a number are that many exactly when none is left out. -/
theorem length_eq_iff_forall_mem {indices : List Nat} {count : Nat} (hnodup : indices.Nodup)
    (hbound : ∀ index ∈ indices, index < count) :
    indices.length = count ↔ ∀ index < count, index ∈ indices := by
  constructor
  · intro hlength index hindex
    have hsubset : indices ⊆ List.range count :=
      fun i hi => List.mem_range.mpr (hbound i hi)
    have hperm : indices.Perm (List.range count) := by
      apply (hnodup.subperm hsubset).perm_of_length_le
      rw [List.length_range]
      exact Nat.le_of_eq hlength.symm
    exact hperm.mem_iff.mpr (List.mem_range.mpr hindex)
  · intro hall
    have hperm : indices.Perm (List.range count) := by
      apply (List.perm_ext_iff_of_nodup hnodup List.nodup_range).mpr
      intro index
      rw [List.mem_range]
      exact ⟨hbound index, hall index⟩
    rw [hperm.length_eq, List.length_range]

namespace InstanceSet

/-- A set has as many members as the list it was made from exactly when none is repeated. -/
theorem size_ofList_eq_length_iff (checks : List Nat) :
    (Std.ExtTreeSet.ofList checks : InstanceSet).size = checks.length ↔ checks.Nodup := by
  constructor
  · intro h
    induction checks with
    | nil => exact List.nodup_nil
    | cons index checks ih =>
      have hinsert : (Std.ExtTreeSet.ofList (index :: checks) : InstanceSet) =
          (Std.ExtTreeSet.ofList checks).insert index := by
        apply Std.ExtTreeSet.ext_mem
        intro other
        simp only [Std.ExtTreeSet.mem_ofList, Std.ExtTreeSet.mem_insert, List.contains_iff_mem,
          List.mem_cons, Std.LawfulEqCmp.compare_eq_iff_eq, eq_comm (a := other)]
      have hrest : (Std.ExtTreeSet.ofList checks : InstanceSet).size ≤ checks.length :=
        Std.ExtTreeSet.size_ofList_le
      rw [hinsert, Std.ExtTreeSet.size_insert, List.length_cons] at h
      by_cases hmem : index ∈ checks
      · rw [if_pos (by simpa using hmem)] at h
        omega
      · rw [if_neg (by simpa using hmem), Nat.add_right_cancel_iff] at h
        exact List.nodup_cons.mpr ⟨hmem, ih h⟩
  · intro h
    apply Std.ExtTreeSet.size_ofList
    exact h.imp fun hne => by simpa using hne

/-- The members are listed from the smallest on. -/
theorem pairwise_toList (set : InstanceSet) : set.toList.Pairwise (· < ·) :=
  Std.ExtTreeSet.ordered_toList.imp fun h => Nat.compare_eq_lt.mp h

/-- Where members from a number on are looked for, the smallest is found. -/
theorem find?_eq_some_iff {set : InstanceSet} {count index : Nat} :
    (set.toList.find? fun i => count ≤ i) = some index ↔
      index ∈ set ∧ count ≤ index ∧ ∀ other ∈ set, count ≤ other → index ≤ other := by
  have hleast : ∀ {found}, (set.toList.find? fun i => count ≤ i) = some found →
      found ∈ set ∧ count ≤ found ∧ ∀ other ∈ set, count ≤ other → found ≤ other := by
    intro found h
    obtain ⟨hfound, before, after, hsplit, hbefore⟩ := List.find?_eq_some_iff_append.mp h
    have hordered := pairwise_toList set
    rw [hsplit, List.pairwise_append, List.pairwise_cons] at hordered
    refine ⟨?_, of_decide_eq_true hfound, ?_⟩
    · rw [← Std.ExtTreeSet.mem_toList, hsplit]
      exact List.mem_append_right before (List.mem_cons_self ..)
    · intro other hother hcount
      rw [← Std.ExtTreeSet.mem_toList, hsplit, List.mem_append, List.mem_cons] at hother
      rcases hother with hother | rfl | hother
      · have hsmall := hbefore other hother
        simp only [decide_eq_true hcount, Bool.not_true, Bool.false_eq_true] at hsmall
      · exact Nat.le_refl _
      · exact Nat.le_of_lt (hordered.2.1.1 other hother)
  constructor
  · exact hleast
  · rintro ⟨hmem, hcount, hsmallest⟩
    have hsome : (set.toList.find? fun i => count ≤ i).isSome := by
      rw [List.find?_isSome]
      exact ⟨index, Std.ExtTreeSet.mem_toList.mpr hmem, decide_eq_true hcount⟩
    obtain ⟨found, hfound⟩ := Option.isSome_iff_exists.mp hsome
    obtain ⟨hfoundMem, hfoundCount, hfoundLeast⟩ := hleast hfound
    have heq : found = index :=
      Nat.le_antisymm (hfoundLeast index hmem hcount) (hsmallest found hfoundMem hfoundCount)
    rw [hfound, heq]

end InstanceSet

namespace InstanceMap

variable {β : Type} {map : InstanceMap β}

/-- Keys are listed from the smallest on. -/
theorem pairwise_keys (map : InstanceMap β) : map.keys.Pairwise (· < ·) :=
  Std.ExtTreeMap.ordered_keys.imp fun h => Nat.compare_eq_lt.mp h

/-- A map and a set list the same indices exactly when they have the same. -/
theorem keys_eq_toList_iff {set : InstanceSet} :
    map.keys = set.toList ↔ ∀ index, index ∈ map ↔ index ∈ set := by
  constructor
  · intro h index
    rw [← Std.ExtTreeMap.mem_keys, h, Std.ExtTreeSet.mem_toList]
  · intro h
    have hmap := pairwise_keys map
    have hset := InstanceSet.pairwise_toList set
    apply List.Perm.eq_of_pairwise (fun a b _ _ hab hba => absurd hab (Nat.lt_asymm hba)) hmap hset
    apply (List.perm_ext_iff_of_nodup (hmap.imp Nat.ne_of_lt) (hset.imp Nat.ne_of_lt)).mpr
    intro index
    rw [Std.ExtTreeMap.mem_keys, Std.ExtTreeSet.mem_toList]
    exact h index

/-- What is found under an index is there. -/
theorem mem_of_getElem? {index : Nat} {value : β} (h : map[index]? = some value) : index ∈ map := by
  rw [← Std.ExtTreeMap.isSome_getElem?_iff_mem, h]
  rfl

section Traversal

variable {ε : Type} {f : Nat × β → Except ε Unit} {Passes Fails : Nat → β → Prop} {e : ε}

/-- A traversal of a map for its effect succeeds exactly when every entry passes. -/
theorem forM_eq_ok_iff (hpasses : ∀ index value, map[index]? = some value →
      (f (index, value) = .ok () ↔ Passes index value)) :
    map.toList.forM f = .ok () ↔ ∀ index value, map[index]? = some value → Passes index value := by
  rw [Traversal.forM_eq_ok_iff]
  constructor
  · intro h index value hvalue
    apply (hpasses index value hvalue).mp
    exact h (index, value) (Std.ExtTreeMap.mem_toList_iff_getElem?_eq_some.mpr hvalue)
  · rintro h ⟨index, value⟩ hmem
    have hvalue := Std.ExtTreeMap.mem_toList_iff_getElem?_eq_some.mp hmem
    exact (hpasses index value hvalue).mpr (h index value hvalue)

/-- Otherwise the failure is that of the entry with the smallest index that does not pass. -/
theorem forM_eq_error_iff (hpasses : ∀ index value, map[index]? = some value →
      (f (index, value) = .ok () ↔ Passes index value))
    (hfails : ∀ index value, map[index]? = some value →
      (f (index, value) = .error e ↔ Fails index value)) :
    map.toList.forM f = .error e ↔ ∃ index value, map[index]? = some value ∧ Fails index value ∧
      ∀ earlier < index, ∀ other, map[earlier]? = some other → Passes earlier other := by
  have hordered : map.toList.Pairwise fun a b => a.1 < b.1 :=
    Std.ExtTreeMap.ordered_keys_toList.imp fun h => Nat.compare_eq_lt.mp h
  rw [Traversal.forM_eq_error_iff]
  constructor
  · rintro ⟨before, ⟨index, value⟩, after, hsplit, hbefore, hfail⟩
    rw [hsplit, List.pairwise_append, List.pairwise_cons] at hordered
    have hvalue : map[index]? = some value := by
      rw [← Std.ExtTreeMap.mem_toList_iff_getElem?_eq_some, hsplit]
      exact List.mem_append_right before (List.mem_cons_self ..)
    refine ⟨index, value, hvalue, (hfails index value hvalue).mp hfail, ?_⟩
    intro earlier hearlier other hother
    apply (hpasses earlier other hother).mp
    rw [← Std.ExtTreeMap.mem_toList_iff_getElem?_eq_some, hsplit, List.mem_append,
      List.mem_cons] at hother
    rcases hother with hother | hother | hother
    · exact hbefore _ hother
    · cases hother
      exact absurd hearlier (Nat.lt_irrefl _)
    · exact absurd hearlier (Nat.lt_asymm (hordered.2.1.1 _ hother))
  · rintro ⟨index, value, hvalue, hfail, hbefore⟩
    have hmem : (index, value) ∈ map.toList :=
      Std.ExtTreeMap.mem_toList_iff_getElem?_eq_some.mpr hvalue
    obtain ⟨before, after, hsplit⟩ := List.append_of_mem hmem
    refine ⟨before, (index, value), after, hsplit, ?_, (hfails index value hvalue).mpr hfail⟩
    rw [hsplit, List.pairwise_append] at hordered
    rintro ⟨earlier, other⟩ hother
    have hlookup : map[earlier]? = some other := by
      rw [← Std.ExtTreeMap.mem_toList_iff_getElem?_eq_some, hsplit]
      exact List.mem_append_left _ hother
    apply (hpasses earlier other hlookup).mpr
    exact hbefore earlier (hordered.2.2 _ hother _ (List.mem_cons_self ..)) other hlookup

end Traversal

end InstanceMap

/-- A check list is in order: no index is repeated, and all are among `count` instances. -/
structure ChecksFit (checks : List Nat) (count : Nat) : Prop where
  /-- No instance is to be checked twice. -/
  nodup : checks.Nodup
  /-- Every instance to be checked exists. -/
  lt_count : ∀ index ∈ checks, index < count

/-- A repetition is noticed by the size of the set, before anything else. -/
theorem checkSet_of_not_nodup {checks : List Nat} (h : ¬checks.Nodup) (count : Nat) :
    checkSet checks count = .error (.invalidOpening .duplicateCheck) := by
  unfold checkSet
  exact if_pos (mt (InstanceSet.size_ofList_eq_length_iff checks).mp h)

/-- Without repetitions, the smallest index that is too large decides. -/
theorem checkSet_of_nodup {checks : List Nat} (h : checks.Nodup) (count : Nat) :
    checkSet checks count =
      match (Std.ExtTreeSet.ofList checks : InstanceSet).toList.find? fun i => count ≤ i with
      | some index => .error (.invalidOpening (.checkOutOfRange index count))
      | none => .ok (.ofList checks) := by
  unfold checkSet
  exact if_neg (not_not_intro ((InstanceSet.size_ofList_eq_length_iff checks).mpr h))

/-- Check lists in order are those that there is a check set for. -/
theorem checkSet_eq_ok_iff {checks : List Nat} {count : Nat} {set : InstanceSet} :
    checkSet checks count = .ok set ↔ ChecksFit checks count ∧ set = .ofList checks := by
  by_cases hnodup : checks.Nodup
  · rw [checkSet_of_nodup hnodup]
    cases hfind : (Std.ExtTreeSet.ofList checks : InstanceSet).toList.find? fun i => count ≤ i with
    | some index =>
      obtain ⟨hmem, hcount, _⟩ := InstanceSet.find?_eq_some_iff.mp hfind
      rw [Std.ExtTreeSet.mem_ofList, List.contains_iff_mem] at hmem
      constructor
      · intro h
        cases h
      · rintro ⟨hfit, _⟩
        exact absurd (hfit.lt_count index hmem) (Nat.not_lt.mpr hcount)
    | none =>
      have hbound : ∀ index ∈ checks, index < count := by
        intro index hindex
        have hmem : index ∈ (Std.ExtTreeSet.ofList checks : InstanceSet).toList := by
          rw [Std.ExtTreeSet.mem_toList, Std.ExtTreeSet.mem_ofList, List.contains_iff_mem]
          exact hindex
        have hsmall := List.find?_eq_none.mp hfind index hmem
        rw [decide_eq_true_eq, Nat.not_le] at hsmall
        exact hsmall
      rw [Except.ok.injEq, eq_comm]
      exact ⟨fun h => ⟨⟨hnodup, hbound⟩, h⟩, fun h => h.2⟩
  · rw [checkSet_of_not_nodup hnodup]
    constructor
    · intro h
      cases h
    · rintro ⟨hfit, _⟩
      exact absurd hfit.nodup hnodup

/-- Repetitions are refused before instances that do not exist, and of these the first. -/
theorem checkSet_eq_error_iff {checks : List Nat} {count : Nat} {e : ExchangeError} :
    checkSet checks count = .error e ↔
      (¬checks.Nodup ∧ e = .invalidOpening .duplicateCheck) ∨
      (checks.Nodup ∧ ∃ index ∈ checks, count ≤ index ∧
        (∀ other ∈ checks, count ≤ other → index ≤ other) ∧
        e = .invalidOpening (.checkOutOfRange index count)) := by
  by_cases hnodup : checks.Nodup
  · have hleast : ∀ index,
        ((Std.ExtTreeSet.ofList checks : InstanceSet).toList.find? fun i => count ≤ i) =
          some index ↔ index ∈ checks ∧ count ≤ index ∧
            ∀ other ∈ checks, count ≤ other → index ≤ other := by
      intro index
      simp only [InstanceSet.find?_eq_some_iff, Std.ExtTreeSet.mem_ofList, List.contains_iff_mem]
    rw [checkSet_of_nodup hnodup]
    constructor
    · intro h
      split at h
      · rename_i index hfind
        cases h
        obtain ⟨hmem, hcount, hsmallest⟩ := (hleast index).mp hfind
        exact Or.inr ⟨hnodup, index, hmem, hcount, hsmallest, rfl⟩
      · cases h
    · rintro (⟨hrepeated, _⟩ | ⟨_, index, hmem, hcount, hsmallest, rfl⟩)
      · exact absurd hnodup hrepeated
      · rw [(hleast index).mpr ⟨hmem, hcount, hsmallest⟩]
  · rw [checkSet_of_not_nodup hnodup]
    constructor
    · intro h
      cases h
      exact Or.inl ⟨hnodup, rfl⟩
    · rintro (⟨_, rfl⟩ | ⟨h, _⟩)
      · rfl
      · exact absurd h hnodup

/-- The smallest is named, wherever it stands. -/
example : checkSet [7, 5] 3 = .error (.invalidOpening (.checkOutOfRange 5 3)) := by decide

namespace Opening

variable {opening : Opening} {checks : List Nat} {count : Nat}

/-- The seeds revealed are those of exactly the instances to be checked. -/
def SeedsFit (opening : Opening) (checks : List Nat) : Prop :=
  ∀ index, index ∈ opening.seeds ↔ index ∈ checks

/-- The garbled circuits handed over are those of exactly the other instances. -/
def EvaluatedFit (opening : Opening) (checks : List Nat) (count : Nat) : Prop :=
  ∀ index, index ∈ opening.evaluated ↔ index < count ∧ index ∉ checks

/-- The list of the keys is compared with that of the check set. -/
theorem keys_seeds_eq_iff :
    opening.seeds.keys = (Std.ExtTreeSet.ofList checks : InstanceSet).toList ↔
      opening.SeedsFit checks := by
  rw [InstanceMap.keys_eq_toList_iff]
  simp only [SeedsFit, Std.ExtTreeSet.mem_ofList, List.contains_iff_mem]

/-- The indices that are checked and those handed over are as many as there are instances. If they
are distinct and small enough, none is left out. -/
theorem evaluatedFit_iff (opening : Opening) (h : ChecksFit checks count) :
    (opening.evaluated.size + (Std.ExtTreeSet.ofList checks : InstanceSet).size = count ∧
      opening.evaluated.keys.all fun index =>
        !(Std.ExtTreeSet.ofList checks : InstanceSet).contains index && index < count) ↔
      opening.EvaluatedFit checks count := by
  have hsize := (InstanceSet.size_ofList_eq_length_iff checks).mpr h.nodup
  have hkeys : (opening.evaluated.keys.all fun index =>
      !(Std.ExtTreeSet.ofList checks : InstanceSet).contains index && index < count) = true ↔
        ∀ index ∈ opening.evaluated, index < count ∧ index ∉ checks := by
    simp only [List.all_eq_true, Std.ExtTreeMap.mem_keys, Bool.and_eq_true, Bool.not_eq_true',
      decide_eq_true_eq, Std.ExtTreeSet.contains_ofList, List.contains_eq_mem, and_comm,
      decide_eq_false_iff_not]
  rw [hsize, hkeys, ← Std.ExtTreeMap.length_keys, ← List.length_append]
  -- Outside the check list, the keys are distinct from it and from each other.
  have hall : (∀ index ∈ opening.evaluated, index < count ∧ index ∉ checks) →
      ((opening.evaluated.keys ++ checks).length = count ↔
        ∀ index < count, index ∈ opening.evaluated.keys ++ checks) := by
    intro houtside
    apply length_eq_iff_forall_mem
    · rw [List.nodup_append]
      refine ⟨Std.ExtTreeMap.nodup_keys, h.nodup, ?_⟩
      rintro index hindex other hother rfl
      exact (houtside index (Std.ExtTreeMap.mem_keys.mp hindex)).2 hother
    · intro index hindex
      rcases List.mem_append.mp hindex with hindex | hindex
      · exact (houtside index (Std.ExtTreeMap.mem_keys.mp hindex)).1
      · exact h.lt_count index hindex
  constructor
  · rintro ⟨hlength, houtside⟩ index
    refine ⟨houtside index, ?_⟩
    rintro ⟨hcount, hindex⟩
    rcases List.mem_append.mp ((hall houtside).mp hlength index hcount) with hmem | hmem
    · exact Std.ExtTreeMap.mem_keys.mp hmem
    · exact absurd hmem hindex
  · intro hfit
    have houtside : ∀ index ∈ opening.evaluated, index < count ∧ index ∉ checks :=
      fun index => (hfit index).mp
    refine ⟨(hall houtside).mpr ?_, houtside⟩
    intro index hcount
    by_cases hindex : index ∈ checks
    · exact List.mem_append_right _ hindex
    · exact List.mem_append_left _ (Std.ExtTreeMap.mem_keys.mpr ((hfit index).mpr ⟨hcount, hindex⟩))

/-- The two parts of an opening are checked one after the other. -/
theorem checkShape_ofList (opening : Opening) (h : ChecksFit checks count)
    [Decidable (opening.SeedsFit checks)] [Decidable (opening.EvaluatedFit checks count)] :
    opening.checkShape (.ofList checks) count =
      if ¬opening.SeedsFit checks then .error (.invalidOpening .seedsMismatch)
      else if opening.EvaluatedFit checks count then .ok ()
      else .error (.invalidOpening .evaluatedMismatch) := by
  unfold checkShape
  simp only [ne_eq, keys_seeds_eq_iff, evaluatedFit_iff opening h]

/-- An opening fits a check list and a number of instances. -/
structure Fits (opening : Opening) (checks : List Nat) (count : Nat) : Prop where
  /-- The check list is in order. -/
  checkList : ChecksFit checks count
  /-- The seeds are those of the instances to be checked. -/
  seeds : opening.SeedsFit checks
  /-- The garbled circuits are those of the others. -/
  evaluated : opening.EvaluatedFit checks count

/-- A seed of an opening that fits belongs to an instance. -/
theorem Fits.lt_of_getElem?_seeds (h : opening.Fits checks count) {index : Nat} {seed : Bytes}
    (hseed : opening.seeds[index]? = some seed) : index < count :=
  h.checkList.lt_count index ((h.seeds index).mp (InstanceMap.mem_of_getElem? hseed))

/-- So does a garbled circuit. -/
theorem Fits.lt_of_getElem?_evaluated (h : opening.Fits checks count) {index : Nat}
    {garbled : GarbledCircuit} (hgarbled : opening.evaluated[index]? = some garbled) :
    index < count :=
  ((h.evaluated index).mp (InstanceMap.mem_of_getElem? hgarbled)).1

/-- How an opening fails to fit. The first condition that fails decides. -/
inductive Misfits (opening : Opening) (checks : List Nat) (count : Nat) : OpeningFault → Prop where
  /-- An index is repeated. -/
  | duplicate (h : ¬checks.Nodup) : Misfits opening checks count .duplicateCheck
  /-- Nothing is repeated, and the index is the smallest that is too large. -/
  | outOfRange {index : Nat} (hnodup : checks.Nodup) (hmem : index ∈ checks)
    (hcount : count ≤ index) (hleast : ∀ other ∈ checks, count ≤ other → index ≤ other) :
    Misfits opening checks count (.checkOutOfRange index count)
  /-- The check list is in order, and the seeds do not fit it. -/
  | seeds (hchecks : ChecksFit checks count) (h : ¬opening.SeedsFit checks) :
    Misfits opening checks count .seedsMismatch
  /-- The seeds fit as well, and the garbled circuits do not. -/
  | evaluated (hchecks : ChecksFit checks count) (hseeds : opening.SeedsFit checks)
    (h : ¬opening.EvaluatedFit checks count) : Misfits opening checks count .evaluatedMismatch

/-- The checks before an audit succeed exactly for openings that fit. -/
theorem fits_iff :
    (do let set ← checkSet checks count; opening.checkShape set count) = .ok () ↔
      opening.Fits checks count := by
  classical
  rw [bind_eq_ok_iff]
  constructor
  · rintro ⟨set, hset, hshape⟩
    obtain ⟨hchecks, rfl⟩ := checkSet_eq_ok_iff.mp hset
    rw [opening.checkShape_ofList hchecks] at hshape
    split_ifs at hshape with hseeds hevaluated
    exact ⟨hchecks, hseeds, hevaluated⟩
  · rintro ⟨hchecks, hseeds, hevaluated⟩
    refine ⟨.ofList checks, checkSet_eq_ok_iff.mpr ⟨hchecks, rfl⟩, ?_⟩
    rw [opening.checkShape_ofList hchecks, if_neg (not_not_intro hseeds), if_pos hevaluated]

/-- They fail exactly with the first reason why an opening does not fit. -/
theorem misfits_iff {e : ExchangeError} :
    (do let set ← checkSet checks count; opening.checkShape set count) = .error e ↔
      ∃ fault, opening.Misfits checks count fault ∧ e = .invalidOpening fault := by
  classical
  rw [bind_eq_error_iff, checkSet_eq_error_iff]
  constructor
  · rintro ((⟨hnodup, rfl⟩ | ⟨hnodup, index, hmem, hcount, hleast, rfl⟩) | ⟨set, hset, hshape⟩)
    · exact ⟨_, .duplicate hnodup, rfl⟩
    · exact ⟨_, .outOfRange hnodup hmem hcount hleast, rfl⟩
    · obtain ⟨hchecks, rfl⟩ := checkSet_eq_ok_iff.mp hset
      rw [opening.checkShape_ofList hchecks] at hshape
      split_ifs at hshape with hseeds hevaluated
      · cases hshape
        exact ⟨_, .evaluated hchecks hseeds hevaluated, rfl⟩
      · cases hshape
        exact ⟨_, .seeds hchecks hseeds, rfl⟩
  · rintro ⟨fault, hmisfit, rfl⟩
    cases hmisfit with
    | duplicate h => exact Or.inl (Or.inl ⟨h, rfl⟩)
    | outOfRange hnodup hmem hcount hleast =>
      exact Or.inl (Or.inr ⟨hnodup, _, hmem, hcount, hleast, rfl⟩)
    | seeds hchecks hseeds =>
      refine Or.inr ⟨.ofList checks, checkSet_eq_ok_iff.mpr ⟨hchecks, rfl⟩, ?_⟩
      rw [opening.checkShape_ofList hchecks, if_pos hseeds]
    | evaluated hchecks hseeds hevaluated =>
      refine Or.inr ⟨.ofList checks, checkSet_eq_ok_iff.mpr ⟨hchecks, rfl⟩, ?_⟩
      rw [opening.checkShape_ofList hchecks, if_neg (not_not_intro hseeds), if_neg hevaluated]

end Opening

end SeededGarbling
