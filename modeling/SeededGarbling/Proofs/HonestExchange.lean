import SeededGarbling.Proofs.Audit
import SeededGarbling.Proofs.Declared
import SeededGarbling.Proofs.Instances

/-!
# Honest exchanges

Where both parties follow the protocol, the exchange ends with the garbled circuits of exactly the
instances that were not checked. The opening lists every instance on one side or the other, and an
audit finds again what the garbler committed to.
-/

namespace SeededGarbling

open Traversal

/-- A map made from those members of a list whose position passes a test is looked up in the list. -/
theorem getElem?_ofList_filter_zipIdx {α β : Type} (members : List α) (keep : Nat → Bool) (f : α → β)
    (index : Nat) :
    (Std.ExtTreeMap.ofList ((members.zipIdx.filter fun entry => keep entry.2).map
      fun entry => (entry.2, f entry.1)) : InstanceMap β)[index]? =
        if keep index then members[index]?.map f else none := by
  have hdistinct : ((members.zipIdx.filter fun entry => keep entry.2).map
      fun entry => (entry.2, f entry.1)).Pairwise fun a b => ¬compare a.1 b.1 = .eq := by
    have hpositions : (members.zipIdx.map Prod.snd).Nodup := by
      rw [List.zipIdx_map_snd]
      exact List.nodup_range'
    apply List.pairwise_map.mpr
    apply List.Pairwise.filter
    apply (List.pairwise_map.mp hpositions).imp
    intro a b hne
    rw [Std.LawfulEqCmp.compare_eq_iff_eq]
    exact hne
  cases hvalue : if keep index then members[index]?.map f else none with
  | some value =>
    split_ifs at hvalue with hkeep
    obtain ⟨member, hmember, rfl⟩ := Option.map_eq_some_iff.mp hvalue
    apply Std.ExtTreeMap.getElem?_ofList_of_mem (Std.ReflCmp.compare_self (a := index)) hdistinct
    apply List.mem_map.mpr
    refine ⟨(member, index), List.mem_filter.mpr ⟨?_, hkeep⟩, rfl⟩
    exact List.mk_mem_zipIdx_iff_getElem?.mpr hmember
  | none =>
    apply Std.ExtTreeMap.getElem?_ofList_of_contains_eq_false
    rw [List.contains_eq_mem, decide_eq_false_iff_not]
    intro hmem
    obtain ⟨⟨_, value⟩, hentry, rfl⟩ := List.mem_map.mp hmem
    obtain ⟨⟨member, position⟩, hfiltered, hequal⟩ := List.mem_map.mp hentry
    cases hequal
    obtain ⟨hmember, hkeep⟩ := List.mem_filter.mp hfiltered
    rw [List.mk_mem_zipIdx_iff_getElem?] at hmember
    rw [if_pos hkeep, hmember] at hvalue
    cases hvalue

/-- Choosing sorts what the sampler draws, so a sample of distinct indices is listed upwards. -/
theorem Verifier.exists_run_choose {ρ : Type} [RandomSource ρ] {bound count : Nat}
    (hcount : count ≤ bound) {coins after : ρ} {drawn : List Nat}
    (hdraw : (Sample.indices bound count).run coins = (drawn, after)) (hnodup : drawn.Nodup) :
    ∃ checks, (choose bound count).run coins = (.ok checks, after) ∧
      checks.Pairwise (· < ·) ∧ checks.Perm drawn := by
  have hsorted : drawn.mergeSort.Pairwise (· ≤ ·) := by
    have hle : drawn.mergeSort.Pairwise fun a b => decide (a ≤ b) = true := by
      apply List.pairwise_mergeSort
      · intro a b c hab hbc
        exact decide_eq_true (Nat.le_trans (of_decide_eq_true hab) (of_decide_eq_true hbc))
      · intro a b
        rw [Bool.or_eq_true, decide_eq_true_eq, decide_eq_true_eq]
        exact Nat.le_total a b
    exact hle.imp of_decide_eq_true
  have hperm : drawn.mergeSort.Perm drawn := List.mergeSort_perm drawn _
  refine ⟨drawn.mergeSort, ?_, ?_, hperm⟩
  · unfold choose
    rw [if_neg (Nat.not_lt.mpr hcount), run_bind_of_ok (run_liftM hdraw)]
    rfl
  · apply (hsorted.and (hperm.nodup_iff.mpr hnodup)).imp
    rintro a b ⟨hle, hne⟩
    exact Nat.lt_of_le_of_ne hle hne

namespace Instance.Honest

variable {member : Instance} {verifier : Verifier} {commitments : List Bytes} {index : Nat}

/-- The seed of an honest instance that was committed to passes. -/
theorem seedPasses (h : member.Honest verifier.config verifier.circuit)
    (hcommitted : commitments[index]? = some member.values.digest) :
    verifier.SeedPasses commitments index member.seed := by
  refine ⟨h.length, member.values.digest, ?_, hcommitted⟩
  exact h.regenerated.outcome_eq verifier.config.fits_workspace

/-- So does the garbled circuit. -/
theorem tablesPass (h : member.Honest verifier.config verifier.circuit)
    (hcommitted : commitments[index]? = some member.values.digest) :
    verifier.TablesPass commitments index member.garbled := by
  obtain ⟨hcomplete, hdecoding⟩ := member.garbled.isGarbled_iff.mp h.isGarbled
  rw [h.outputs] at hdecoding
  rw [h.digest] at hcommitted
  exact ⟨h.size, h.inputs, h.outputs, hcomplete, hdecoding, hcommitted⟩

end Instance.Honest

/-- An opening reveals of every instance what the check list asks for: the seed of those to be
checked, the garbled circuit of the others. -/
structure Opening.Reveals (opening : Opening) (members : List Instance) (checks : List Nat) :
    Prop where
  /-- The seeds revealed. -/
  seeds : ∀ index, opening.seeds[index]? =
    if index ∈ checks then members[index]?.map Instance.seed else none
  /-- The garbled circuits handed over. -/
  evaluated : ∀ index, opening.evaluated[index]? =
    if index ∉ checks then members[index]?.map Instance.garbled else none

/-- What it reveals is what a check list in order lets it reveal. -/
theorem Opening.Reveals.fits {opening : Opening} {members : List Instance} {checks : List Nat}
    (h : opening.Reveals members checks) (hchecks : ChecksFit checks members.length) :
    opening.Fits checks members.length := by
  refine ⟨hchecks, ?_, ?_⟩
  · intro index
    rw [← Std.ExtTreeMap.isSome_getElem?_iff_mem, h.seeds]
    by_cases hindex : index ∈ checks
    · have hlt := hchecks.lt_count index hindex
      simp [hindex, hlt]
    · simp [hindex]
  · intro index
    rw [← Std.ExtTreeMap.isSome_getElem?_iff_mem, h.evaluated]
    by_cases hindex : index ∈ checks
    · simp [hindex]
    · simp [hindex]

namespace Garbler

variable {garbler : Garbler} {checks : List Nat}

/-- A garbler answers a check list in order. -/
theorem exists_openInstances (h : ChecksFit checks garbler.instances.length) :
    ∃ opening, garbler.openInstances checks = .ok opening ∧
      opening.Reveals garbler.instances checks := by
  have hset : ∀ index, (Std.ExtTreeSet.ofList checks : InstanceSet).contains index = true ↔
      index ∈ checks := by
    intro index
    rw [Std.ExtTreeSet.contains_ofList, List.contains_iff_mem]
  have hopen : garbler.openInstances checks = .ok {
      seeds := .ofList ((garbler.instances.zipIdx.filter fun entry =>
        (Std.ExtTreeSet.ofList checks : InstanceSet).contains entry.2).map
          fun entry => (entry.2, entry.1.seed))
      evaluated := .ofList ((garbler.instances.zipIdx.filter fun entry =>
        !(Std.ExtTreeSet.ofList checks : InstanceSet).contains entry.2).map
          fun entry => (entry.2, entry.1.garbled)) } := by
    unfold openInstances
    rw [checkSet_eq_ok_iff.mpr ⟨h, rfl⟩]
    simp only [List.partition_eq_filter_filter]
    rfl
  refine ⟨_, hopen, ?_, ?_⟩
  · intro index
    have hlookup := getElem?_ofList_filter_zipIdx garbler.instances
      (fun i => (Std.ExtTreeSet.ofList checks : InstanceSet).contains i) Instance.seed index
    simp only [hset] at hlookup
    exact hlookup
  · intro index
    have hlookup := getElem?_ofList_filter_zipIdx garbler.instances
      (fun i => !(Std.ExtTreeSet.ofList checks : InstanceSet).contains i) Instance.garbled index
    simp only [Bool.not_eq_true', ← Bool.not_eq_true, hset] at hlookup
    exact hlookup

/-- How an exchange ends well. -/
structure Passes (garbler : Garbler) (verifier : Verifier) (checks : List Nat) (opening : Opening)
    (accepted : InstanceMap GarbledCircuit) : Prop where
  /-- The garbler answers the check list. -/
  opened : garbler.openInstances checks = .ok opening
  /-- The seeds revealed are those of exactly the instances to be checked. -/
  seeds : ∀ index, index ∈ opening.seeds ↔ index ∈ checks
  /-- Every other instance is handed over, and none besides. -/
  evaluated : ∀ index, index ∈ opening.evaluated ↔
    index < garbler.commitments.length ∧ index ∉ checks
  /-- The verifier accepts. -/
  audited : verifier.audit garbler.commitments checks opening = .ok accepted
  /-- The verifier is left with exactly the instances that were not checked. -/
  covered : ∀ index, index ∈ accepted ↔ index < garbler.commitments.length ∧ index ∉ checks
  /-- Each is the one that the garbler holds, is garbled, and can be decoded as the garbler does. -/
  held : ∀ index garbled, accepted[index]? = some garbled →
    ∃ member values, garbler.instances[index]? = some member ∧ garbled = member.garbled ∧
      garbled.isGarbled = true ∧ garbler.creationValues? index = some values ∧
      garbled.decoding = values.decoding

/-- There is one commitment for each instance. -/
@[simp] theorem length_commitments (garbler : Garbler) :
    garbler.commitments.length = garbler.instances.length :=
  List.length_map _

/-- The digest of an instance is its commitment. -/
theorem getElem?_commitments {index : Nat} {member : Instance}
    (h : garbler.instances[index]? = some member) :
    garbler.commitments[index]? = some member.values.digest := by
  rw [commitments, List.getElem?_map, h]
  rfl

/-- An opening that reveals honest instances is accepted by whoever agreed on the same. -/
theorem accepts_of_honest {verifier : Verifier}
    (hall : ∀ member ∈ garbler.instances, member.Honest verifier.config verifier.circuit)
    (hchecks : ChecksFit checks garbler.instances.length) {opening : Opening}
    (hreveals : opening.Reveals garbler.instances checks) :
    verifier.Accepts garbler.commitments checks opening := by
  refine ⟨?_, ?_, ?_⟩
  · rw [length_commitments]
    exact hreveals.fits hchecks
  · intro index seed hseed
    rw [hreveals.seeds] at hseed
    split_ifs at hseed with hindex
    obtain ⟨member, hmember, rfl⟩ := Option.map_eq_some_iff.mp hseed
    exact (hall member (List.mem_of_getElem? hmember)).seedPasses (getElem?_commitments hmember)
  · intro index garbled hgarbled
    rw [hreveals.evaluated] at hgarbled
    split_ifs at hgarbled with hindex
    obtain ⟨member, hmember, rfl⟩ := Option.map_eq_some_iff.mp hgarbled
    exact (hall member (List.mem_of_getElem? hmember)).tablesPass (getElem?_commitments hmember)

/-- An exchange about honest instances ends well. -/
theorem exists_passes {verifier : Verifier}
    (hall : ∀ member ∈ garbler.instances, member.Honest verifier.config verifier.circuit)
    (hchecks : ChecksFit checks garbler.instances.length) :
    ∃ opening accepted, garbler.Passes verifier checks opening accepted := by
  obtain ⟨opening, hopen, hreveals⟩ := exists_openInstances hchecks
  have haccepts := accepts_of_honest hall hchecks hreveals
  refine ⟨opening, opening.evaluated, ?_⟩
  constructor
  case opened => exact hopen
  case seeds => exact haccepts.fits.seeds
  case evaluated => exact haccepts.fits.evaluated
  case audited => exact Verifier.audit_eq_ok_iff.mpr ⟨haccepts, rfl⟩
  case covered => exact haccepts.fits.evaluated
  case held =>
    intro index garbled hgarbled
    rw [hreveals.evaluated] at hgarbled
    split_ifs at hgarbled with hindex
    obtain ⟨member, hmember, rfl⟩ := Option.map_eq_some_iff.mp hgarbled
    have hhonest := hall member (List.mem_of_getElem? hmember)
    refine ⟨member, member.values, hmember, rfl, hhonest.isGarbled, ?_, hhonest.decoding⟩
    rw [creationValues?, hmember]
    rfl

/-- Whatever the algorithms, the valid circuit, the number of instances, the sources of randomness
and the earlier commitments of the garbler: the commitment succeeds, and for every check list in
order the exchange ends well. Such a check list is what the verifier chooses, smallest index first,
whenever the sampler draws as many distinct indices as asked for. -/
theorem honest_exchange_passes {ρ σ : Type} [RandomSource ρ] [RandomSource σ] (garbler : Garbler)
    (verifier : Verifier) (hconfig : verifier.config = garbler.config)
    (hcircuit : verifier.circuit = garbler.circuit) (hvalid : garbler.circuit.validate = .ok ())
    (count : Nat) (source : ρ) :
    ∃ committed after, (garbler.commit count).run source = (.ok committed, after) ∧
      committed.commitments.length = count ∧
      (∀ checks : List Nat, checks.Nodup → (∀ index ∈ checks, index < count) →
        ∃ opening accepted, committed.Passes verifier checks opening accepted) ∧
      ∀ picked ≤ count, ∀ (coins coins' : σ) (drawn : List Nat),
        (Sample.indices count picked).run coins = (drawn, coins') →
        drawn.Nodup → drawn.length = picked → (∀ index ∈ drawn, index < count) →
        ∃ checks opening accepted,
          (Verifier.choose count picked).run coins = (.ok checks, coins') ∧
          checks.Pairwise (· < ·) ∧ checks.length = picked ∧ (∀ index ∈ checks, index < count) ∧
          committed.Passes verifier checks opening accepted := by
  obtain ⟨instances, after, hrun, hlength, hall⟩ := exists_run_commit garbler hvalid count source
  rw [← hconfig, ← hcircuit] at hall
  have hcount : ({ garbler with instances := instances } : Garbler).commitments.length = count := by
    rw [length_commitments, hlength]
  have hpasses : ∀ checks : List Nat, checks.Nodup → (∀ index ∈ checks, index < count) →
      ∃ opening accepted,
        ({ garbler with instances := instances } : Garbler).Passes verifier checks opening
          accepted := by
    intro checks hnodup hbound
    rw [← hlength] at hbound
    exact exists_passes hall ⟨hnodup, hbound⟩
  refine ⟨_, after, hrun, hcount, hpasses, ?_⟩
  intro picked hpicked coins coins' drawn hdraw hnodup hdrawn hbound
  obtain ⟨checks, hchoose, hsorted, hperm⟩ := Verifier.exists_run_choose hpicked hdraw hnodup
  have hchecks : ∀ index ∈ checks, index < count :=
    fun index hindex => hbound index (hperm.mem_iff.mp hindex)
  obtain ⟨opening, accepted, hpass⟩ := hpasses checks (hsorted.imp Nat.ne_of_lt) hchecks
  refine ⟨checks, opening, accepted, hchoose, hsorted, ?_, hchecks, hpass⟩
  rw [hperm.length_eq, hdrawn]

/-- Three instances from a source of equal bytes: the verifier chooses two of them, and another
check list may be in any order. -/
theorem honest_exchange_passes_negatedSum : ∃ committed after,
    ((⟨{}, .negatedSum, []⟩ : Garbler).commit 3).run (⟨#[7], 0⟩ : CyclicSource) =
      (.ok committed, after) ∧
    (∃ opening accepted, committed.Passes ⟨{}, .negatedSum⟩ [2, 0] opening accepted) ∧
    ∃ checks opening accepted,
      (Verifier.choose 3 2).run (⟨#[7], 0⟩ : CyclicSource) = (.ok checks, ⟨#[7], 8⟩) ∧
      committed.Passes ⟨{}, .negatedSum⟩ checks opening accepted := by
  have hdraw : (Sample.indices 3 2).run (⟨#[7], 0⟩ : CyclicSource) = ([2, 0], ⟨#[7], 8⟩) := rfl
  obtain ⟨committed, after, hrun, _, hpasses, hchoose⟩ := honest_exchange_passes (σ := CyclicSource)
    ⟨{}, .negatedSum, []⟩ ⟨{}, .negatedSum⟩ rfl rfl Circuit.validate_negatedSum 3
    (⟨#[7], 0⟩ : CyclicSource)
  obtain ⟨checks, opening, accepted, hchosen, _, _, _, hpass⟩ :=
    hchoose 2 (by decide) _ _ _ hdraw (by decide) rfl (by decide)
  exact ⟨committed, after, hrun, hpasses [2, 0] (by decide) (by decide),
    checks, opening, accepted, hchosen, hpass⟩

end Garbler

end SeededGarbling
