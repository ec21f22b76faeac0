import SeededGarbling.Bytes

/-!
# Hexadecimal text

Bytes are written as two lower-case digits each. Either case is read; the first fault of a text is
its odd length, or else the first character that is no digit.
-/

namespace SeededGarbling

/-- Why a text is not hexadecimal. Positions count bytes of the text. -/
inductive HexError where
  /-- The digits cannot be paired. -/
  | oddLength
  /-- A byte of the text, read as a character, is no digit. -/
  | invalidCharacter (character : Char) (position : Nat)
  deriving DecidableEq, Repr

/-- Whether a character below 256 shows as itself between quotes. -/
private def showsAsItself (c : Char) : Bool :=
  (0x20 ≤ c.toNat && c.toNat < 0x7f || 0xa1 ≤ c.toNat && c.toNat ≠ 0xad) && c ≠ '\'' && c ≠ '\\'

/-- A character between quotes, escaped where it would not show as itself. -/
def quoteCharacter (c : Char) : String :=
  let body :=
    if c = '\'' then "\\'"
    else if c = '\\' then "\\\\"
    else if c = '\x00' then "\\0"
    else if c = '\t' then "\\t"
    else if c = '\n' then "\\n"
    else if c = '\r' then "\\r"
    else if showsAsItself c then c.toString
    else "\\u\x7b" ++ String.ofList (Nat.toDigits 16 c.toNat) ++ "\x7d"
  "'" ++ body ++ "'"

/-- The wording of a fault. -/
def HexError.message : HexError → String
  | oddLength => "Odd number of digits"
  | invalidCharacter character position =>
    s!"Invalid character {quoteCharacter character} at position {position}"

namespace Hex

/-- The digits of a byte. -/
def digits (b : UInt8) : List Char :=
  [Nat.digitChar (b.toNat / 16), Nat.digitChar (b.toNat % 16)]

/-- Two digits per byte. -/
def encode (bytes : Bytes) : String :=
  String.ofList (bytes.flatMap digits)

/-- The value of a digit of either case, given as a byte of text. -/
def digitValue? (digit : UInt8) : Option UInt8 :=
  if 0x30 ≤ digit ∧ digit ≤ 0x39 then some (digit - 0x30)
  else if 0x61 ≤ digit ∧ digit ≤ 0x66 then some (digit - 0x61 + 10)
  else if 0x41 ≤ digit ∧ digit ≤ 0x46 then some (digit - 0x41 + 10)
  else none

/-- The value of the digit at a position, or the fault there. -/
def digitAt (digit : UInt8) (position : Nat) : Except HexError UInt8 :=
  match digitValue? digit with
  | some value => .ok value
  | none => .error (.invalidCharacter (Char.ofNat digit.toNat) position)

/-- Reads pairs of digits from a position on, behind the bytes read before. -/
def decodeFrom (read : Array UInt8) (position : Nat) : Bytes → Except HexError (Array UInt8)
  | high :: low :: rest => do
    let h ← digitAt high position
    let l ← digitAt low (position + 1)
    decodeFrom (read.push (h <<< 4 ||| l)) (position + 2) rest
  | _ => .ok read

/-- The bytes that a text writes. -/
def decode (text : String) : Except HexError Bytes := do
  let digits := text.toUTF8.data.toList
  if digits.length % 2 = 1 then
    .error .oddLength
  else
    return (← decodeFrom #[] 0 digits).toList

end Hex

end SeededGarbling
