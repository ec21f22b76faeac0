import SeededGarbling.Circuit.Basic

/-!
# Ripple-carry adders

An adder of `n` bits reads the bits of one number from wires `0` to `n - 1`, those of the other from
wires `n` to `2n - 1`, both least significant first, and a carry from wire `2n`. Bit `i` reads the
carry from wire `2n + 5i` and drives the five wires after it, the last of which is the next carry.
-/

namespace SeededGarbling.Adder

/-- The widest adder supported. -/
def maximumBits : Nat := 1000000

/-- The wire that holds the carry into bit `i`. -/
def carryWire (n i : Nat) : Nat :=
  2 * n + 5 * i

/-- The gates of bit `i`: the half sum, the sum, and the next carry from two conjunctions of which
at most one holds. -/
def bitGates (n i : Nat) : List Gate :=
  let wire := UInt32.ofNat
  let carry := carryWire n i
  [ ⟨wire i, wire (n + i), wire (carry + 1), .xor⟩,
    ⟨wire (carry + 1), wire carry, wire (carry + 2), .xor⟩,
    ⟨wire i, wire (n + i), wire (carry + 3), .and⟩,
    ⟨wire (carry + 1), wire carry, wire (carry + 4), .and⟩,
    ⟨wire (carry + 3), wire (carry + 4), wire (carry + 5), .xor⟩ ]

/-- The adder of `n` bits, whatever `n`. Its outputs are the sum bits and the last carry. -/
def circuit (n : Nat) : Circuit where
  gates := (List.range n).flatMap (bitGates n)
  inputs := (List.range (2 * n + 1)).map UInt32.ofNat
  outputs := (List.range n).map (fun i => UInt32.ofNat (carryWire n i + 2))
    ++ [UInt32.ofNat (carryWire n n)]

/-- The adder of `n` bits, if that many are supported. -/
def ofBits (n : Nat) : Except CircuitError Circuit :=
  if n > maximumBits then .error (.tooWide n maximumBits) else .ok (circuit n)

end SeededGarbling.Adder
