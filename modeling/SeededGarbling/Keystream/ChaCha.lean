import SeededGarbling.Square

/-!
# ChaCha

A block is a square of sixteen words made from a constant, a key and a 64-bit block counter, mixed
by double rounds and added to itself unmixed. The nonce is zero throughout.
-/

namespace SeededGarbling.ChaCha

/-- Mixes four words. -/
def quarterRound (q : Quarter) : Quarter :=
  let a := q.a + q.b
  let d := rotateLeft (q.d ^^^ a) 16
  let c := q.c + d
  let b := rotateLeft (q.b ^^^ c) 12
  let a := a + b
  let d := rotateLeft (d ^^^ a) 8
  let c := c + d
  let b := rotateLeft (b ^^^ c) 7
  ⟨a, b, c, d⟩

/-- Mixes the columns, then the diagonals. -/
def doubleRound (s : Square) : Square :=
  s.sweep fun _ => quarterRound

/-- `count` double rounds. -/
def doubleRounds : (count : Nat) → Square → Square
  | 0, s => s
  | count + 1, s => doubleRounds count (doubleRound s)

/-- The eight words of a 32-byte key, least significant byte first. -/
def keyWords (key : Bytes) : Vector UInt32 8 :=
  Vector.ofFn fun i =>
    wordOfBytes (key.getD (4 * i) 0) (key.getD (4 * i + 1) 0) (key.getD (4 * i + 2) 0)
      (key.getD (4 * i + 3) 0)

/-- The words that every square starts with. -/
def constantWords : Vector UInt32 4 :=
  #v[0x61707865, 0x3320646e, 0x79622d32, 0x6b206574]

/-- The square before mixing. -/
def start (key : Vector UInt32 8) (counter : Nat) : Square :=
  constantWords ++ key ++ #v[UInt32.ofNat counter, UInt32.ofNat (counter / UInt32.size), 0, 0]

/-- The words of block number `counter` after the given number of double rounds. -/
def block (doubleRoundCount : Nat) (key : Vector UInt32 8) (counter : Nat) : Square :=
  let s := start key counter
  Vector.zipWith (· + ·) (doubleRounds doubleRoundCount s) s

/-- The words of a square as bytes, least significant byte first. -/
def squareBytes (s : Square) : Vector UInt8 64 :=
  Vector.ofFn fun i => wordByte s[i.val / 4] (i.val % 4)

end SeededGarbling.ChaCha
