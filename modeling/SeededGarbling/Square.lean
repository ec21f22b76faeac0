import SeededGarbling.Bytes

/-!
# Squares of words

Stream cipher and hash mix a square of sixteen words four at a time: first the four columns, then
the four diagonals. What they do with four words is their own matter.
-/

namespace SeededGarbling

/-- Sixteen words, row after row. -/
abbrev Square := Vector UInt32 16

/-- The four words that are mixed together. -/
structure Quarter where
  /-- The word of the first row. -/
  a : UInt32
  /-- The word of the second row. -/
  b : UInt32
  /-- The word of the third row. -/
  c : UInt32
  /-- The word of the fourth row. -/
  d : UInt32
  deriving DecidableEq, Repr

namespace Square

/-- Mixes the words at four places. -/
def mixAt (mix : Quarter → Quarter) (s : Square) (a b c d : Fin 16) : Square :=
  let q := mix ⟨s[a], s[b], s[c], s[d]⟩
  (((s.set a q.a).set b q.b).set c q.c).set d q.d

/-- Mixes the columns, then the diagonals; the way of mixing may differ from one to the next. -/
def sweep (mix : Fin 8 → Quarter → Quarter) (s : Square) : Square :=
  let s := s.mixAt (mix 0) 0 4 8 12
  let s := s.mixAt (mix 1) 1 5 9 13
  let s := s.mixAt (mix 2) 2 6 10 14
  let s := s.mixAt (mix 3) 3 7 11 15
  let s := s.mixAt (mix 4) 0 5 10 15
  let s := s.mixAt (mix 5) 1 6 11 12
  let s := s.mixAt (mix 6) 2 7 8 13
  s.mixAt (mix 7) 3 4 9 14

end Square

end SeededGarbling
