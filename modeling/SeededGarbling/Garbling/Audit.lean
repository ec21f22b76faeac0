import SeededGarbling.Garbling.Seeded

/-!
# Audits

An audit compares a committed digest with one computed here, from tables that are held or from
tables regenerated out of a seed. A digest that differs is an answer, not a failure.
-/

namespace SeededGarbling

/-- Whether two digests agree: in length, and then in every byte. -/
def digestsMatch (committed computed : Bytes) : Bool :=
  committed.length == computed.length &&
    (List.zipWith (· ^^^ ·) committed computed).foldl (· ||| ·) 0 == 0

private theorem foldl_or_eq_zero_iff (differences : Bytes) (seen : UInt8) :
    differences.foldl (· ||| ·) seen = 0 ↔ seen = 0 ∧ ∀ d ∈ differences, d = 0 := by
  induction differences generalizing seen with
  | nil => simp
  | cons d rest ih => simp [ih, and_assoc, UInt8.or_eq_zero_iff]

/-- Collecting the differences of all bytes decides equality. -/
@[simp] theorem digestsMatch_iff (committed computed : Bytes) :
    digestsMatch committed computed = true ↔ committed = computed := by
  induction committed generalizing computed with
  | nil => cases computed <;> simp [digestsMatch]
  | cons a as ih =>
    cases computed with
    | nil => simp [digestsMatch]
    | cons b bs =>
      have h := ih bs
      simp only [digestsMatch, Bool.and_eq_true, beq_iff_eq, foldl_or_eq_zero_iff,
        List.zipWith_cons_cons, List.length_cons, Nat.add_right_cancel_iff, List.mem_cons,
        forall_eq_or_imp, UInt8.xor_eq_zero_iff, List.cons.injEq, true_and] at h ⊢
      rw [← h]
      exact and_left_comm

namespace Audit

variable {γ : Type}

/-- The digest of the tables that are there, in gate order, behind what the hasher held before. -/
def hashTables (hasher : Hasher) (tables : TableSet) : Bytes × Hasher :=
  (hasher.updateAll tables.present).finalize

/-- Whether the tables that are there have the committed digest. -/
def checkTables (hasher : Hasher) (tables : TableSet) (committed : Bytes) : Bool × Hasher :=
  let (computed, hasher) := hashTables hasher tables
  (digestsMatch committed computed, hasher)

/-- Whether garbling from a revealed seed gives tables with the committed digest. -/
def checkSeed [Generator γ] (algorithm : PrfAlgorithm) (circuit : Circuit) (seed committed : Bytes) :
    Run γ Bool := do
  let computed ← Garbling.digestOnly algorithm circuit seed
  return digestsMatch committed computed

end Audit

end SeededGarbling
