/-!
# Control sequences

Messages are written for a terminal: a control sequence, which starts with an escape character,
marks what is important. Where there is no terminal, control sequences are taken out again and so
are control characters, blanks apart. A text in a message may hold some of its own, and one that it
leaves open goes on behind the text.
-/

namespace SeededGarbling.CommandLine

/-- Where in a control sequence a text stands. -/
inductive ControlState where
  /-- Outside of any. -/
  | ground
  /-- Behind an escape character. -/
  | escape
  /-- In a short sequence, which one more letter or digit ends. -/
  | intermediate
  /-- Among the parameters of a sequence, which a letter ends. -/
  | parameters
  /-- In a command for the operating system, which a bell ends. -/
  | command
  /-- At the head of a string for a device. -/
  | device
  /-- Among the parameters at the head of a string for a device. -/
  | deviceParameters
  /-- Behind the parameters at the head of a string for a device. -/
  | deviceIntermediate
  /-- In a string, which the byte of a string terminator ends. -/
  | string
  deriving DecidableEq, Repr

namespace ControlState

/-- The byte that ends a string. It is looked for within characters as well. -/
def stringTerminator : UInt8 := 0x9c

/-- Where a text stands behind a character. One of several bytes is part of the sequence it is in. -/
def next (state : ControlState) (c : Char) : ControlState :=
  if c = '\x1b' then escape
  else if c = '\x18' ∨ c = '\x1a' then ground
  else if c.toNat < 0x20 ∨ c = '\x7f' then
    if state = command ∧ c = '\x07' then ground else state
  else if 0x80 ≤ c.toNat then
    if state = string ∧ stringTerminator ∈ String.utf8EncodeChar c then ground else state
  else
    match state with
    | escape =>
      if c ≤ '/' then intermediate
      else if c = '[' then parameters
      else if c = ']' then command
      else if c = 'P' then device
      else if c ∈ ['X', '^', '_'] then string
      else ground
    | intermediate => if c ≤ '/' then intermediate else ground
    | parameters => if c ≤ '?' then parameters else ground
    | device =>
      if c ≤ '/' then deviceIntermediate else if c ≤ '?' then deviceParameters else string
    | deviceParameters =>
      if c ≤ '/' then deviceIntermediate else if c ≤ ';' then deviceParameters else string
    | deviceIntermediate => if c ≤ '/' then deviceIntermediate else string
    | state => state

/-- Whether blanks are shown: those in a string and in a command are part of it. -/
def showsBlanks (state : ControlState) : Bool :=
  state ∈ [ground, escape, intermediate, parameters]

/-- Whether a character is shown. -/
def shows (state : ControlState) (c : Char) : Bool :=
  if c ∈ ['\t', '\n', '\x0c', '\r'] then state.showsBlanks
  else state == ground && ' ' ≤ c && c != '\x7f'

/-- What is shown of a text. From a character that is shown on, all is shown up to the next control
character. A blank within a sequence leaves the sequence open behind what is shown, which a
character of several bytes does not. -/
def shown : (state : ControlState) → (showing : Bool) → List Char → List Char
  | _, _, [] => []
  | state, showing, c :: rest =>
    if (if showing then ground.shows c else state.shows c) then
      c :: shown (if 0x80 ≤ c.toNat then ground else if showing then state else state.next c)
        true rest
    else shown (state.next c) false rest

end ControlState

/-- A text that is marked as important. -/
def highlight (text : String) : String :=
  "\x1b[1m" ++ text ++ "\x1b[0m"

/-- What is shown of a text where there is no terminal. -/
def withoutControl (text : String) : String :=
  String.ofList (ControlState.ground.shown false text.toList)

end SeededGarbling.CommandLine
