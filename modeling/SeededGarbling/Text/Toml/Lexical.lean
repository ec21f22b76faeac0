import SeededGarbling.Text.Json.Lexical

/-!
# The words of TOML

Keys, strings of the four kinds, and the values that are no strings: numbers, truth values, dates
and times. Of the latter only the form is decided, since nothing here asks for one.
-/

namespace SeededGarbling.Toml

/-- Reads off the front of a text, or finds a fault. -/
abbrev Scanner (α : Type) := List Char → Option (α × List Char)

/-- Blanks within a line. -/
def isBlank (c : Char) : Bool :=
  c == ' ' || c == '\t'

/-- Whether a character may stand in a comment or, but for quotes and backslashes, in a string. -/
def isPrintable (c : Char) : Bool :=
  c == '\t' || (0x20 ≤ c.toNat && c.toNat != 0x7f)

/-- Skips blanks within a line. -/
def skipBlanks (text : List Char) : List Char :=
  text.dropWhile isBlank

/-- The end of a line, if one stands in front. -/
def newline? : List Char → Option (List Char)
  | '\n' :: rest => some rest
  | '\r' :: '\n' :: rest => some rest
  | _ => none

/-- Skips blanks, comments and ends of lines, from within a comment or not. A comment has to end
with its line. -/
def skipLines : (inComment : Bool) → List Char → Option (List Char)
  | _, [] => some []
  | _, '\n' :: rest => skipLines false rest
  | _, '\r' :: '\n' :: rest => skipLines false rest
  | true, c :: rest => if isPrintable c then skipLines true rest else none
  | false, c :: rest =>
    if isBlank c then skipLines false rest
    else if c == '#' then skipLines true rest
    else some (c :: rest)

/-- Requires the end of a line, in front of which a comment may stand. -/
def endOfLine (text : List Char) : Option (List Char) :=
  let rest := match skipBlanks text with
    | '#' :: rest => rest.dropWhile isPrintable
    | rest => rest
  match rest with
  | [] => some []
  | rest => newline? rest

/-- The character with a code, if there is one. -/
def character? (code : Nat) : Option Char :=
  if code < 0xd800 ∨ (0xe000 ≤ code ∧ code < 0x110000) then some (Char.ofNat code) else none

/-- The character that a letter stands for behind a backslash. -/
def escape? : Char → Option Char
  | '/' => none
  | c => Json.escape? c

/-- The characters up to the closing quote of a one-line string with escapes. -/
def basicFront (read : List Char) : Scanner (List Char)
  | '"' :: rest => some (read.reverse, rest)
  | '\\' :: 'u' :: a :: b :: c :: d :: rest => do
    let code ← Json.hexUnit? a b c d
    basicFront ((← character? code) :: read) rest
  | '\\' :: 'U' :: a :: b :: c :: d :: e :: f :: g :: h :: rest => do
    let code := (← Json.hexUnit? a b c d) * 0x10000 + (← Json.hexUnit? e f g h)
    basicFront ((← character? code) :: read) rest
  | '\\' :: c :: rest => do
    basicFront ((← escape? c) :: read) rest
  | c :: rest => if isPrintable c then basicFront (c :: read) rest else none
  | [] => none

/-- The characters up to the closing quote of a one-line string without escapes. -/
def literalFront (read : List Char) : Scanner (List Char)
  | '\'' :: rest => some (read.reverse, rest)
  | c :: rest => if isPrintable c then literalFront (c :: read) rest else none
  | [] => none

/-- Whether a character may stand in a string of several lines. -/
def isPrintableOrNewline (c : Char) : Bool :=
  isPrintable c || c == '\n'

/-- Drops blanks and ends of lines up to the next other character. -/
def dropGap : List Char → List Char
  | '\r' :: '\n' :: rest => dropGap rest
  | c :: rest => if isBlank c || c == '\n' then dropGap rest else c :: rest
  | [] => []

/-- Ends a string of several lines at its last three quotes, of which two may belong to it. -/
def closeLong (quote : Char) (read : List Char) (text : List Char) : List Char × List Char :=
  match text with
  | a :: b :: rest =>
    if a == quote && b == quote then ((quote :: quote :: read).reverse, rest)
    else if a == quote then ((quote :: read).reverse, b :: rest)
    else (read.reverse, a :: b :: rest)
  | [a] => if a == quote then ((quote :: read).reverse, []) else (read.reverse, [a])
  | [] => (read.reverse, [])

/-- The characters up to the closing quotes of a string of several lines with escapes. A backslash
at the end of a line takes the blanks up to the next other character with it. There are no more
steps than the text behind `fuel` has characters. -/
def longBasicFront : (fuel read : List Char) → Scanner (List Char)
  | [], _, _ => none
  | _ :: fuel, read, text =>
    match text with
    | '"' :: '"' :: '"' :: rest => some (closeLong '"' read rest)
    | '\\' :: 'u' :: a :: b :: c :: d :: rest => do
      let code ← Json.hexUnit? a b c d
      longBasicFront fuel ((← character? code) :: read) rest
    | '\\' :: 'U' :: a :: b :: c :: d :: e :: f :: g :: h :: rest => do
      let code := (← Json.hexUnit? a b c d) * 0x10000 + (← Json.hexUnit? e f g h)
      longBasicFront fuel ((← character? code) :: read) rest
    | '\\' :: rest =>
      if (newline? (skipBlanks rest)).isSome then
        longBasicFront fuel read (dropGap rest)
      else
        match rest with
        | c :: rest => do longBasicFront fuel ((← escape? c) :: read) rest
        | [] => none
    | '\r' :: '\n' :: rest => longBasicFront fuel ('\n' :: read) rest
    | c :: rest => if isPrintableOrNewline c then longBasicFront fuel (c :: read) rest else none
    | [] => none

/-- The characters up to the closing quotes of a string of several lines without escapes. -/
def longLiteralFront (read : List Char) : Scanner (List Char)
  | '\'' :: '\'' :: '\'' :: rest => some (closeLong '\'' read rest)
  | '\r' :: '\n' :: rest => longLiteralFront ('\n' :: read) rest
  | c :: rest => if isPrintableOrNewline c then longLiteralFront (c :: read) rest else none
  | [] => none

/-- An end of line right behind the opening quotes does not belong to the string. -/
def dropFirstNewline (text : List Char) : List Char :=
  (newline? text).getD text

/-- A string of any kind. -/
def stringValue : Scanner String
  | '"' :: '"' :: '"' :: rest => do
    let (read, rest) ← longBasicFront rest [] (dropFirstNewline rest)
    return (String.ofList read, rest)
  | '\'' :: '\'' :: '\'' :: rest => do
    let (read, rest) ← longLiteralFront [] (dropFirstNewline rest)
    return (String.ofList read, rest)
  | '"' :: rest => do
    let (read, rest) ← basicFront [] rest
    return (String.ofList read, rest)
  | '\'' :: rest => do
    let (read, rest) ← literalFront [] rest
    return (String.ofList read, rest)
  | _ => none

/-- Whether a character may stand in a key without quotes. -/
def isBareKey (c : Char) : Bool :=
  c.isAlphanum || c == '_' || c == '-'

/-- A key of one part. -/
def keyPart : Scanner String
  | '"' :: rest => do
    let (read, rest) ← basicFront [] rest
    return (String.ofList read, rest)
  | '\'' :: rest => do
    let (read, rest) ← literalFront [] rest
    return (String.ofList read, rest)
  | text =>
    match text.takeWhile isBareKey with
    | [] => none
    | key => some (String.ofList key, text.dropWhile isBareKey)

/-- How deep a document may nest, in the parts of one key as well as in brackets and braces. -/
def maximumDepth : Nat := 79

/-- A key of one or more parts, at most `room`, with dots between them. -/
def keyParts : (room : Nat) → Scanner (List String)
  | 0, _ => none
  | room + 1, text => do
    let (key, rest) ← keyPart (skipBlanks text)
    match skipBlanks rest with
    | '.' :: rest =>
      let (keys, rest) ← keyParts room rest
      return (key :: keys, rest)
    | rest => return ([key], rest)

/-- A key. -/
def keyPath : Scanner (List String) :=
  keyParts maximumDepth

/-- Digits with single underscores between them. -/
def isGrouped (isDigit : Char → Bool) : List Char → Bool
  | [] => false
  | [c] => isDigit c
  | c :: '_' :: rest => isDigit c && isGrouped isDigit rest
  | c :: rest => isDigit c && isGrouped isDigit rest

/-- Decimal digits without a needless zero in front. -/
def isDecimal (text : List Char) : Bool :=
  isGrouped Char.isDigit text && (text.length == 1 || text.head? != some '0')

/-- The text behind a sign, if there is one, and whether it is negative. -/
def splitSign : List Char → Bool × List Char
  | '+' :: rest => (false, rest)
  | '-' :: rest => (true, rest)
  | text => (false, text)

/-- The value of digits of a base, whatever stands between them. -/
def digitsValue (base : Nat) (text : List Char) : Nat :=
  (text.filterMap Json.hexDigit?).foldl (fun value digit => base * value + digit) 0

/-- Whether a word is an integer of 64 bits with a sign. -/
def isInteger (word : List Char) : Bool :=
  let below := UInt64.size / 2
  match word with
  | '0' :: 'x' :: rest => isGrouped (fun c => (Json.hexDigit? c).isSome) rest && digitsValue 16 rest < below
  | '0' :: 'o' :: rest => isGrouped (fun c => '0' ≤ c && c ≤ '7') rest && digitsValue 8 rest < below
  | '0' :: 'b' :: rest => isGrouped (fun c => c == '0' || c == '1') rest && digitsValue 2 rest < below
  | word =>
    let (negative, digits) := splitSign word
    isDecimal digits && digitsValue 10 digits < below + if negative then 1 else 0

/-- The least number that is rounded to infinity: half a step above the largest number with 53
significant bits whose exponent is in range. -/
def infinityBound : Nat :=
  (1 <<< 54 - 1) <<< 970

/-- The absolute value of an exponent, which is not read any further once it has become large. -/
def exponentSize (digits : List Char) : Nat :=
  (digits.filterMap Json.hexDigit?).foldl
    (fun value digit => if value < 0x10000 then 10 * value + digit else value) 0

/-- Whether the number with the given digits in front of the power of ten, of which the last
`places` follow the point, is rounded to infinity. -/
def isHuge (digits : List Char) (places : Nat) (negativeExponent : Bool) (exponent : Nat) : Bool :=
  let digits := (digits.filter Char.isDigit).dropWhile (· == '0')
  let up := if negativeExponent then 0 else exponent
  let down := if negativeExponent then places + exponent else places
  if digits.isEmpty || digits.length + up < 309 + down then false
  else if digits.length + up > 309 + down then true
  else digitsValue 10 digits * Nat.pow 10 (up - down) ≥ infinityBound * Nat.pow 10 (down - up)

/-- Whether a text is the exponent of a number, and if so whether it is negative, and its digits. -/
def exponentPart? (text : List Char) : Option (Bool × List Char) :=
  let signed := match text with
    | 'e' :: rest => splitSign rest
    | 'E' :: rest => splitSign rest
    | _ => (false, [])
  if isGrouped Char.isDigit signed.2 then some signed else none

/-- Whether a word is a number with a fraction or an exponent, or none at all. A number may be too
small for its range, but not too large. -/
def isFloat (word : List Char) : Bool :=
  let (negative, unsigned) := splitSign word
  let isDigitOrGap := fun c : Char => c.isDigit || c == '_'
  let whole := unsigned.takeWhile isDigitOrGap
  let inRange := fun (fraction : List Char) (negativeExponent : Bool) (exponent : List Char) =>
    negative || !isHuge (whole ++ fraction) (fraction.filter Char.isDigit).length negativeExponent
      (exponentSize exponent)
  unsigned == ['i', 'n', 'f'] || unsigned == ['n', 'a', 'n'] ||
    isDecimal whole && match unsigned.dropWhile isDigitOrGap with
      | '.' :: rest =>
        let fraction := rest.takeWhile isDigitOrGap
        isGrouped Char.isDigit fraction && match rest.dropWhile isDigitOrGap with
          | [] => inRange fraction false []
          | rest => (exponentPart? rest).any fun (negative, digits) => inRange fraction negative digits
      | rest => (exponentPart? rest).any fun (negative, digits) => inRange [] negative digits

/-- The number written by exactly the given digits. -/
def twoDigits? (a b : Char) : Option Nat :=
  if a.isDigit && b.isDigit then some (digitsValue 10 [a, b]) else none

/-- How many days a month has. -/
def daysIn (year month : Nat) : Nat :=
  if month == 2 then
    if year % 4 == 0 && (year % 100 != 0 || year % 400 == 0) then 29 else 28
  else if month == 4 || month == 6 || month == 9 || month == 11 then 30
  else 31

/-- A day of the calendar. -/
def date : Scanner Unit
  | y₁ :: y₂ :: y₃ :: y₄ :: '-' :: m₁ :: m₂ :: '-' :: d₁ :: d₂ :: rest => do
    let year := (← twoDigits? y₁ y₂) * 100 + (← twoDigits? y₃ y₄)
    let month ← twoDigits? m₁ m₂
    let day ← twoDigits? d₁ d₂
    if 1 ≤ month ∧ month ≤ 12 ∧ 1 ≤ day ∧ day ≤ daysIn year month then some ((), rest) else none
  | _ => none

/-- A time of the day, with any number of places behind the seconds. -/
def time : Scanner Unit
  | h₁ :: h₂ :: ':' :: m₁ :: m₂ :: ':' :: s₁ :: s₂ :: rest => do
    let fits := (← twoDigits? h₁ h₂) ≤ 23 ∧ (← twoDigits? m₁ m₂) ≤ 59 ∧ (← twoDigits? s₁ s₂) ≤ 60
    if fits then
      match rest with
      | '.' :: rest => (Json.skipDigits rest).map fun rest => ((), rest)
      | rest => some ((), rest)
    else none
  | _ => none

/-- A distance from universal time, or nothing. -/
def offset : Scanner Unit
  | 'Z' :: rest => some ((), rest)
  | 'z' :: rest => some ((), rest)
  | sign :: h₁ :: h₂ :: ':' :: m₁ :: m₂ :: rest =>
    if sign == '+' || sign == '-' then do
      let fits := (← twoDigits? h₁ h₂) ≤ 23 ∧ (← twoDigits? m₁ m₂) ≤ 59
      if fits then some ((), rest) else none
    else some ((), sign :: h₁ :: h₂ :: ':' :: m₁ :: m₂ :: rest)
  | rest => some ((), rest)

/-- A date, a time, or both. -/
def moment (text : List Char) : Option (List Char) :=
  match date text with
  | some ((), separator :: rest) =>
    if separator == 'T' || separator == 't' || (separator == ' ' && (time rest).isSome) then do
      let ((), rest) ← time rest
      let ((), rest) ← offset rest
      return rest
    else some (separator :: rest)
  | some ((), []) => some []
  | none => (time text).map Prod.snd

/-- Whether a character belongs to a number or a literal. -/
def isWordCharacter (c : Char) : Bool :=
  isBareKey c || c == '+' || c == '.'

/-- A value that is neither a string nor made of others. -/
def scalar (text : List Char) : Option (List Char) :=
  match moment text with
  | some rest => some rest
  | none =>
    let word := text.takeWhile isWordCharacter
    let isLiteral := word == ['t', 'r', 'u', 'e'] || word == ['f', 'a', 'l', 's', 'e']
    if isLiteral || isInteger word || isFloat word then some (text.dropWhile isWordCharacter) else none

end SeededGarbling.Toml
