/-!
# Whole numbers as arguments

A number may have a sign in front; a minus belongs only to numbers of a range with negative ones.
The text is read from the left, and its first fault counts.
-/

namespace SeededGarbling.CommandLine

/-- Why a text is not a number of a range. -/
inductive IntegerFault where
  /-- There is no text. -/
  | empty
  /-- A character is no digit, or no digit follows the sign. -/
  | invalidDigit
  /-- The number is above the range. -/
  | tooLarge
  /-- The number is below the range. -/
  | tooSmall
  deriving DecidableEq, Repr

/-- The wording of a fault. -/
def IntegerFault.message : IntegerFault → String
  | empty => "cannot parse integer from empty string"
  | invalidDigit => "invalid digit found in string"
  | tooLarge => "number too large to fit in target type"
  | tooSmall => "number too small to fit in target type"

/-- Reads the decimal digits of a number up to `maximum`, behind the value read before. -/
def readMagnitude (maximum : Nat) (fault : IntegerFault) :
    (value : Nat) → List Char → Except IntegerFault Nat
  | value, [] => .ok value
  | value, c :: rest =>
    if !c.isDigit then .error .invalidDigit
    else
      let value := 10 * value + (c.toNat - '0'.toNat)
      if value > maximum then .error fault else readMagnitude maximum fault value rest

/-- Reads a number from `-below` to `above`. -/
def readInteger (below above : Nat) (text : String) : Except IntegerFault Int :=
  match text.toList with
  | [] => .error .empty
  | ['+'] => .error .invalidDigit
  | ['-'] => .error .invalidDigit
  | '+' :: digits => (readMagnitude above .tooLarge 0 digits).map Int.ofNat
  | '-' :: digits =>
    if below = 0 then .error .invalidDigit
    else (readMagnitude below .tooSmall 0 digits).map fun value => -Int.ofNat value
  | digits => (readMagnitude above .tooLarge 0 digits).map Int.ofNat

/-- Reads a number of 64 bits without a sign. -/
def readNatural64 (text : String) : Except IntegerFault Nat :=
  (readInteger 0 (UInt64.size - 1) text).map Int.toNat

end SeededGarbling.CommandLine
