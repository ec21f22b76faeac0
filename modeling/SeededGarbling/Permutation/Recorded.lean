import SeededGarbling.KeyedFunction

/-!
# Round functions under observation

A recorded round function notes every question before it answers, and can be made to fail at one of
them, so that the order and the number of the rounds can be seen.
-/

namespace SeededGarbling

/-- A question to a round function. -/
structure RoundCall where
  /-- The input. -/
  input : Bytes
  /-- The output length. -/
  length : Nat
  deriving DecidableEq, Repr

namespace RoundFunction

/-- Notes down every question. The one with the number `failing`, counted from one, fails. -/
def recorded (f : KeyedFunction) (failing : Option Nat) : RoundFunction (StateM (Array RoundCall)) :=
  fun input n => do
    modify fun calls => calls.push ⟨input, n⟩
    if some (← get).size = failing then
      throw .unseeded
    MonadExcept.ofExcept (f input n)

/-- A round function without a key: three times the input, over and over, with the position added to
each byte. -/
def echo : KeyedFunction := fun input n =>
  let period := input.toArray
  .ok (Vector.ofFn fun i : Fin n => 3 * period.getD (i % period.size) 0 + UInt8.ofNat i)

end RoundFunction

end SeededGarbling
