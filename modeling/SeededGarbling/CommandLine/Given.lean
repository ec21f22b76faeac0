import SeededGarbling.Algorithm
import SeededGarbling.Circuit.Adder
import SeededGarbling.CommandLine.Integer
import SeededGarbling.CommandLine.UsageError

/-!
# Values of parameters

A value is judged when it is taken over: a parameter takes one value only, a file needs a name, an
algorithm must exist and a number must be in range.
-/

namespace SeededGarbling.CommandLine

/-- What was given, parameter by parameter. -/
structure Given where
  /-- The configuration file. -/
  config : Option String := none
  /-- The generator. -/
  prg : Option PrgAlgorithm := none
  /-- The function behind labels and pads. -/
  prf : Option PrfAlgorithm := none
  /-- The hash. -/
  hash : Option HashAlgorithm := none
  /-- The width of the adder. -/
  bits : Option Nat := none
  /-- A seed. -/
  seed : Option String := none
  /-- The file that tables are written to. -/
  tables : Option String := none
  /-- A committed digest. -/
  digest : Option String := none
  /-- The file that tables are read from. -/
  file : Option String := none
  /-- The number of instances. -/
  circuits : Option Nat := none
  /-- The number of instances to check. -/
  checks : Option Nat := none
  /-- The seed of all random choices. -/
  rngSeed : Option Nat := none
  deriving DecidableEq, Repr

namespace Given

/-- Whether a parameter was given. -/
def has (given : Given) : Parameter → Bool
  | .config => given.config.isSome
  | .prg => given.prg.isSome
  | .prf => given.prf.isSome
  | .hash => given.hash.isSome
  | .bits => given.bits.isSome
  | .seed => given.seed.isSome
  | .tables => given.tables.isSome
  | .digest => given.digest.isSome
  | .file => given.file.isSome
  | .circuits => given.circuits.isSome
  | .checks => given.checks.isSome
  | .rngSeed => given.rngSeed.isSome

/-- The path of a file, which may not be empty. -/
def path (parameter : Parameter) (value : String) : Except UsageError (Option String) :=
  if value.isEmpty then .error (.valueRequired parameter) else .ok (some value)

/-- The algorithm of a name. -/
def algorithm {α : Type} [NamedChoice α] (parameter : Parameter) (value : String) :
    Except UsageError (Option α) :=
  match NamedChoice.ofName value with
  | .ok choice => .ok (some choice)
  | .error cause => .error (.invalidValue parameter value cause.message)

/-- A number of 64 bits without a sign. -/
def natural64 (parameter : Parameter) (value : String) : Except UsageError (Option Nat) :=
  match readNatural64 value with
  | .ok number => .ok (some number)
  | .error fault => .error (.invalidValue parameter value fault.message)

/-- A width that adders can have. Numbers of 64 bits with a sign are told apart from other texts. -/
def adderBits (parameter : Parameter) (value : String) : Except UsageError (Option Nat) :=
  match readInteger (UInt64.size / 2) (UInt64.size / 2 - 1) value with
  | .ok number =>
    if 0 ≤ number ∧ number ≤ Adder.maximumBits then .ok (some number.toNat)
    else
      .error (.invalidValue parameter value s!"{number} is not in 0..={Adder.maximumBits}")
  | .error fault => .error (.invalidValue parameter value fault.message)

/-- Takes over the value of a parameter, which must not have been given before. -/
def store (given : Given) (parameter : Parameter) (value : String) : Except UsageError Given := do
  if given.has parameter then
    throw (.usedTwice parameter)
  match parameter with
  | .config => return { given with config := ← path parameter value }
  | .prg => return { given with prg := ← algorithm parameter value }
  | .prf => return { given with prf := ← algorithm parameter value }
  | .hash => return { given with hash := ← algorithm parameter value }
  | .bits => return { given with bits := ← adderBits parameter value }
  | .seed => return { given with seed := some value }
  | .tables => return { given with tables := ← path parameter value }
  | .digest => return { given with digest := some value }
  | .file => return { given with file := ← path parameter value }
  | .circuits => return { given with circuits := ← natural64 parameter value }
  | .checks => return { given with checks := ← natural64 parameter value }
  | .rngSeed => return { given with rngSeed := ← natural64 parameter value }

end Given

end SeededGarbling.CommandLine
