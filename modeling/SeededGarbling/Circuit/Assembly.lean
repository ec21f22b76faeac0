import Mathlib.Algebra.Group.Nat.Defs
import SeededGarbling.Circuit.Adder

/-!
# Assembling adders from words

An adder is put together bit by bit, with wire numbers that are sums and products of 32-bit words. A
number that is no word stops the assembly, or it wraps.
-/

namespace SeededGarbling

/-- What becomes of a sum or a product that is no word. -/
inductive WordArithmetic where
  /-- It stops the computation. -/
  | checked
  /-- Its high bits are lost. -/
  | wrapping
  deriving DecidableEq, Repr

namespace Adder

/-- Why no adder is assembled. -/
inductive AssemblyFault where
  /-- A number is no word. -/
  | overflow
  /-- The adder is refused before any number is computed. -/
  | refused (cause : CircuitError)
  deriving DecidableEq, Repr

end Adder

namespace WordArithmetic

open Adder

/-- The sum of two words. -/
def add : WordArithmetic → Wire → Wire → Except AssemblyFault Wire
  | checked, a, b => if a.toNat + b.toNat < 2 ^ 32 then .ok (a + b) else .error .overflow
  | wrapping, a, b => .ok (a + b)

/-- The product of two words. -/
def mul : WordArithmetic → Wire → Wire → Except AssemblyFault Wire
  | checked, a, b => if a.toNat * b.toNat < 2 ^ 32 then .ok (a * b) else .error .overflow
  | wrapping, a, b => .ok (a * b)

end WordArithmetic

namespace Adder

/-- An adder behind some of its bits. -/
structure Assembly where
  /-- The gates of these bits. -/
  gates : List Gate
  /-- Their sum wires. -/
  outputs : List Wire
  /-- The wire to be driven next. -/
  next : Wire
  /-- The wire that holds the carry. -/
  carry : Wire
  deriving DecidableEq, Repr

/-- Adds the gates of a bit of an adder with `n` bits. -/
def Assembly.addBit (arithmetic : WordArithmetic) (n : Wire) (assembly : Assembly) (i : Wire) :
    Except AssemblyFault Assembly := do
  let right ← arithmetic.add n i
  let halfSum := assembly.next
  let sum ← arithmetic.add assembly.next 1
  let halfCarry ← arithmetic.add assembly.next 2
  let propagated ← arithmetic.add assembly.next 3
  let carryOut ← arithmetic.add assembly.next 4
  let next ← arithmetic.add assembly.next 5
  return {
    gates := assembly.gates ++
      [ ⟨i, right, halfSum, .xor⟩,
        ⟨halfSum, assembly.carry, sum, .xor⟩,
        ⟨i, right, halfCarry, .and⟩,
        ⟨halfSum, assembly.carry, propagated, .and⟩,
        ⟨halfCarry, propagated, carryOut, .xor⟩ ]
    outputs := assembly.outputs ++ [sum]
    next := next
    carry := carryOut }

/-- The words of the numbers below a number. -/
def wordsBelow (stop : Nat) : List Wire :=
  (List.range stop).map UInt32.ofNat

/-- Assembles an adder of `n` bits, if that many are supported. -/
def assemble (arithmetic : WordArithmetic) (n : Wire) : Except AssemblyFault Circuit := do
  if n.toNat > maximumBits then
    throw (.refused (.tooWide n.toNat maximumBits))
  let carry ← arithmetic.mul 2 n
  let next ← arithmetic.add carry 1
  let assembly ← (wordsBelow n.toNat).foldlM (Assembly.addBit arithmetic n) ⟨[], [], next, carry⟩
  return {
    gates := assembly.gates
    inputs := wordsBelow (carry.toNat + 1)
    outputs := assembly.outputs ++ [assembly.carry] }

end Adder

end SeededGarbling
