import SeededGarbling.Garbling.GarbledCircuit
import Std.Data.ExtTreeSet

/-!
# Openings

Once the instances to be checked are known, the garbler reveals the seeds of these and hands over
the garbled circuits of all others. An opening that does not fit the check list is refused before
anything in it is looked at.
-/

namespace SeededGarbling

/-- A finite map from instances, listed in the order of their indices. -/
abbrev InstanceMap (β : Type) := Std.ExtTreeMap Nat β

/-- A set of instances, listed in the order of their indices. -/
abbrev InstanceSet := Std.ExtTreeSet Nat

/-- How an opening and a check list fail to fit the commitments. -/
inductive OpeningFault where
  /-- An instance is to be checked twice. -/
  | duplicateCheck
  /-- An instance to be checked does not exist. -/
  | checkOutOfRange (index circuits : Nat)
  /-- The seeds are not those of the instances to be checked. -/
  | seedsMismatch
  /-- The garbled circuits are not those of the other instances. -/
  | evaluatedMismatch
  deriving DecidableEq, Repr

/-- The wording of a fault of an opening. -/
def OpeningFault.message : OpeningFault → String
  | duplicateCheck => "duplicate check index"
  | checkOutOfRange index circuits => s!"check index {index} out of {circuits} circuits"
  | seedsMismatch => "seeds do not match the check set"
  | evaluatedMismatch => "evaluation circuits do not cover the unchecked instances"

/-- Why an exchange stops. -/
inductive ExchangeError where
  /-- An instance is not what was committed to. -/
  | cheatAttempt (index : Nat)
  /-- More instances are to be checked than there are. -/
  | tooManyChecks (checks circuits : Nat)
  /-- The opening does not fit. -/
  | invalidOpening (fault : OpeningFault)
  /-- Garbling failed. -/
  | garble (cause : GarbleError)
  deriving DecidableEq, Repr

/-- The wording of the end of an exchange. -/
def ExchangeError.message : ExchangeError → String
  | cheatAttempt index => s!"cheating detected in circuit {index}"
  | tooManyChecks checks circuits => s!"cannot check {checks} of {circuits} circuits"
  | invalidOpening fault => s!"invalid opening: {fault.message}"
  | garble cause => cause.message

/-- What the garbler reveals. -/
structure Opening where
  /-- The seeds of the instances to be checked. -/
  seeds : InstanceMap Bytes := ∅
  /-- The garbled circuits of the other instances. -/
  evaluated : InstanceMap GarbledCircuit := ∅
  deriving DecidableEq

/-- The set of a check list without repetitions, all of it among `count` instances. -/
def checkSet (checks : List Nat) (count : Nat) : Except ExchangeError InstanceSet :=
  let set : InstanceSet := .ofList checks
  if set.size ≠ checks.length then
    .error (.invalidOpening .duplicateCheck)
  else
    match set.toList.find? fun index => count ≤ index with
    | some index => .error (.invalidOpening (.checkOutOfRange index count))
    | none => .ok set

/-- Refuses an opening that does not reveal exactly the seeds of the check set and the garbled
circuits of the rest of `count` instances. -/
def Opening.checkShape (opening : Opening) (set : InstanceSet) (count : Nat) :
    Except ExchangeError Unit :=
  if opening.seeds.keys ≠ set.toList then
    .error (.invalidOpening .seedsMismatch)
  else if opening.evaluated.size + set.size = count ∧
      opening.evaluated.keys.all fun index => !set.contains index && index < count then
    .ok ()
  else
    .error (.invalidOpening .evaluatedMismatch)

end SeededGarbling
