import SeededGarbling.Text.ReadError

/-!
# The words of JSON

Marks, literals, numbers and strings. Blanks may stand before every word but are never written.
Values that nobody asks for are skipped: they must have the form of a value, but neither the range
of a number nor the pairing of surrogates is looked at.
-/

namespace SeededGarbling.Json

/-- The characters that may stand between words. -/
def isBlank (c : Char) : Bool :=
  c == ' ' || c == '\n' || c == '\t' || c == '\r'

/-- The next character that is not blank, which stays unread. -/
def peek : Reader (Option Char) := fun text =>
  let text := text.dropWhile isBlank
  .ok (text.head?, text)

/-- Drops one character. -/
def advance : Reader Unit :=
  modify List.tail

/-- Reads a mark. -/
def mark (c : Char) : Reader Unit := do
  if (← peek) = some c then advance else throw .malformed

/-- Reads exactly the given characters. -/
def exactly (word : List Char) : Reader Unit :=
  Reader.ofOption fun text => if word.isPrefixOf text then some ((), text.drop word.length) else none

/-- The decimal digits of a number. -/
def writeNatural (n : Nat) : List Char :=
  Nat.toDigits 10 n

/-- Digits that write a number: some, and no zero in front of others. -/
def isNatural : List Char → Bool
  | [] => false
  | ['0'] => true
  | c :: _ => c != '0'

/-- Whether what follows digits makes them part of a number of another kind. -/
def continuesNumber : List Char → Bool
  | c :: _ => c == '.' || c == 'e' || c == 'E'
  | [] => false

/-- The number below `bound` whose digits stand in front. -/
def naturalFront (bound : Nat) (text : List Char) : Option (Nat × List Char) :=
  let digits := text.takeWhile Char.isDigit
  let rest := text.dropWhile Char.isDigit
  let value := Nat.ofDigitChars 10 digits 0
  if isNatural digits && !continuesNumber rest && value < bound then some (value, rest) else none

/-- Reads a number below `bound`. -/
def natural (bound : Nat) : Reader Nat := do
  let _ ← peek
  Reader.ofOption (naturalFront bound)

/-- The value of a hexadecimal digit of either case. -/
def hexDigit? (c : Char) : Option Nat :=
  if c.isDigit then some (c.toNat - '0'.toNat)
  else if 'a' ≤ c ∧ c ≤ 'f' then some (c.toNat - 'a'.toNat + 10)
  else if 'A' ≤ c ∧ c ≤ 'F' then some (c.toNat - 'A'.toNat + 10)
  else none

/-- The value of four hexadecimal digits. -/
def hexUnit? (a b c d : Char) : Option Nat := do
  return ((← hexDigit? a) * 16 + (← hexDigit? b)) * 256 + ((← hexDigit? c) * 16 + (← hexDigit? d))

/-- The character that a letter stands for behind a backslash. -/
def escape? : Char → Option Char
  | '"' => some '"'
  | '\\' => some '\\'
  | '/' => some '/'
  | 'b' => some '\x08'
  | 'f' => some '\x0c'
  | 'n' => some '\n'
  | 'r' => some '\r'
  | 't' => some '\t'
  | _ => none

/-- Whether a unit is the first of a surrogate pair. -/
def isHighSurrogate (unit : Nat) : Bool :=
  0xd800 ≤ unit && unit < 0xdc00

/-- Whether a unit is the second of a surrogate pair. -/
def isLowSurrogate (unit : Nat) : Bool :=
  0xdc00 ≤ unit && unit < 0xe000

/-- The characters up to the closing quote, behind those read before (last first). Surrogates have
to come in pairs. -/
def stringFront (read : List Char) : List Char → Option (List Char × List Char)
  | '"' :: rest => some (read.reverse, rest)
  | '\\' :: 'u' :: a :: b :: c :: d :: rest => do
    let unit ← hexUnit? a b c d
    if isHighSurrogate unit then
      match rest with
      | '\\' :: 'u' :: a :: b :: c :: d :: rest =>
        let low ← hexUnit? a b c d
        if isLowSurrogate low then
          let code := 0x10000 + (unit - 0xd800) * 0x400 + (low - 0xdc00)
          stringFront (Char.ofNat code :: read) rest
        else none
      | _ => none
    else if isLowSurrogate unit then none
    else stringFront (Char.ofNat unit :: read) rest
  | '\\' :: c :: rest => do
    let escaped ← escape? c
    stringFront (escaped :: read) rest
  | c :: rest => if c.toNat < 0x20 then none else stringFront (c :: read) rest
  | [] => none

/-- Reads a string. -/
def string : Reader String := do
  mark '"'
  return String.ofList (← Reader.ofOption (stringFront []))

/-- A string of characters that stand for themselves. -/
def writeString (text : String) : List Char :=
  '"' :: text.toList ++ ['"']

/-- Skips up to the closing quote. -/
def skipStringFront : List Char → Option (Unit × List Char)
  | '"' :: rest => some ((), rest)
  | '\\' :: 'u' :: a :: b :: c :: d :: rest => do
    let _ ← hexUnit? a b c d
    skipStringFront rest
  | '\\' :: c :: rest => do
    let _ ← escape? c
    skipStringFront rest
  | c :: rest => if c.toNat < 0x20 then none else skipStringFront rest
  | [] => none

/-- Skips a string. -/
def skipString : Reader Unit := do
  mark '"'
  Reader.ofOption skipStringFront

/-- Skips digits, of which there has to be one. -/
def skipDigits (text : List Char) : Option (List Char) :=
  match text with
  | c :: rest => if c.isDigit then some (rest.dropWhile Char.isDigit) else none
  | [] => none

/-- Skips a fraction, if one begins here. -/
def skipFraction : List Char → Option (List Char)
  | '.' :: rest => skipDigits rest
  | text => some text

/-- Skips an exponent, if one begins here. -/
def skipExponent : List Char → Option (List Char)
  | c :: rest =>
    if c == 'e' || c == 'E' then
      match rest with
      | '+' :: rest => skipDigits rest
      | '-' :: rest => skipDigits rest
      | rest => skipDigits rest
    else some (c :: rest)
  | [] => some []

/-- Skips a number of any kind. -/
def skipNumberFront (text : List Char) : Option (Unit × List Char) := do
  let unsigned := match text with
    | '-' :: rest => rest
    | text => text
  if isNatural (unsigned.takeWhile Char.isDigit) then
    let rest ← skipFraction (unsigned.dropWhile Char.isDigit)
    return ((), ← skipExponent rest)
  else none

/-- Reads one or more items with commas between them, up to the closing mark. Every item takes
characters, so there are no more items than the text behind `fuel` has characters. -/
def itemsUpTo {α : Type} (close : Char) (item : Reader α) : (fuel : List Char) → Reader (List α)
  | [] => throw .malformed
  | _ :: fuel => do
    let first ← item
    let next ← peek
    if next = some ',' then
      advance
      return first :: (← itemsUpTo close item fuel)
    else if next = some close then
      advance
      return [first]
    else
      throw .malformed

/-- Reads any number of items with commas between them, up to the closing mark. -/
def items {α : Type} (close : Char) (item : Reader α) : Reader (List α) := do
  if (← peek) = some close then
    advance
    return []
  else
    fun text => itemsUpTo close item text text

/-- Skips a value of any kind that does not nest deeper than `fuel` is long. -/
def skipNested : (fuel : List Char) → Reader Unit
  | [] => throw .malformed
  | _ :: fuel => do
    match ← peek with
    | some '\x7b' =>
      advance
      let _ ← items '\x7d' do
        skipString
        mark ':'
        skipNested fuel
    | some '[' =>
      advance
      let _ ← items ']' (skipNested fuel)
    | some '"' => skipString
    | some 't' => exactly ['t', 'r', 'u', 'e']
    | some 'f' => exactly ['f', 'a', 'l', 's', 'e']
    | some 'n' => exactly ['n', 'u', 'l', 'l']
    | _ => Reader.ofOption skipNumberFront

/-- Skips a value of any kind. -/
def skip : Reader Unit := fun text =>
  skipNested text text

end SeededGarbling.Json
