import SeededGarbling.Random.Source
import Std.Data.HashSet

/-!
# Samples of distinct indices

`count` distinct indices below `bound` are drawn by the method that suits the two numbers: few of
many one by one with repair of collisions, many of few by shuffling a list of all, and few of very
many by drawing until new. Where a source repeats itself before the sample is complete, the smallest
indices not drawn yet complete it.
-/

namespace SeededGarbling.Sample

variable {ρ : Type} [RandomSource ρ]

/-- A number from `low` to `low + width - 1`, by multiplying a word with the width. A second word
decides whether the first one, near its upper end, is rounded up. -/
def range (low width : Nat) : StateM ρ Nat := do
  let product := (← RandomSource.word32) * width
  let high := product / UInt32.size
  let rest := product % UInt32.size
  if rest > UInt32.size - width then
    let carry := (← RandomSource.word32) * width / UInt32.size
    return low + high + if rest + carry ≥ UInt32.size then 1 else 0
  else
    return low + high

/-- Extends a sample by one index below `limit + 1`; if it is there already, `limit` takes its
place. -/
def addRepaired (drawn : List Nat) (limit : Nat) : StateM ρ (List Nat) := do
  let index ← range 0 (limit + 1)
  return drawn.replace index limit ++ [index]

/-- One index for each of the last `count` limits, with repair of collisions. -/
def byRepair (bound count : Nat) : StateM ρ (List Nat) :=
  (List.range' (bound - count) count).foldlM addRepaired []

/-- Brings a random one of the entries from a position on to that position. -/
def bringForward (entries : Array Nat) (position : Nat) : StateM ρ (Array Nat) := do
  let chosen ← range position (entries.size - position)
  return entries.swapIfInBounds position chosen

/-- The first `count` entries of a list of all indices, shuffled that far. -/
def byShuffle (bound count : Nat) : StateM ρ (List Nat) := do
  let entries ← (List.range count).foldlM bringForward (Array.range bound)
  return entries.toList.take count

/-- An index below `bound` from a number below `words`; the products whose low part is too small are
refused, so that all indices are equally likely. -/
def scale? (words bound word : Nat) : Option Nat :=
  let product := word * bound
  if product % words < (words - bound) % bound then none else some (product / words)

/-- The `count` smallest indices below `bound` outside a set. They are found among the first
indices, as many as are in the set or still wanted. -/
def smallestOutside (seen : Std.HashSet Nat) (count bound : Nat) : List Nat :=
  let candidates := List.range (min bound (seen.size + count))
  (candidates.filter fun index => !seen.contains index).take count

/-- Draws words until one of them gives an index that is new, but no more than `fuel` words. -/
def nextNew (word : StateM ρ Nat) (words bound : Nat) (seen : Std.HashSet Nat) :
    (fuel : Nat) → StateM ρ (Option Nat)
  | 0 => return none
  | fuel + 1 => do
    match scale? words bound (← word) with
    | some index =>
      if seen.contains index then nextNew word words bound seen fuel else return some index
    | none => nextNew word words bound seen fuel

/-- Draws words until `missing` further indices are new. The indices drawn before are listed last
first. Once the source has gone round without a new index, there is none to come. -/
def drawUntilNew (word : StateM ρ Nat) (words bound : Nat) :
    (missing : Nat) → Std.HashSet Nat → List Nat → StateM ρ (List Nat)
  | 0, _, drawn => return drawn.reverse
  | missing + 1, seen, drawn => do
    match ← nextNew word words bound seen (RandomSource.cycle (← get)) with
    | some index => drawUntilNew word words bound missing (seen.insert index) (index :: drawn)
    | none => return drawn.reverse ++ smallestOutside seen (missing + 1) bound

/-- The number with at most 24 significant bits that is nearest to a number; a tie goes to the one
whose last bit is zero. -/
def roundTo24Bits (n : Nat) : Nat :=
  let excess := n.log2 + 1 - 24
  let unit := 1 <<< excess
  let quotient := n / unit
  let twice := 2 * (n % unit)
  let up := twice > unit || (twice == unit && quotient % 2 == 1)
  (quotient + if up then 1 else 0) * unit

/-- The ratio 330/9 to 24 significant bits, in units of the eighteenth binary place. -/
def wideRatio : Nat := 9611947

/-- How many of these units make one. -/
def ratioUnits : Nat := 262144

/-- Whether shuffling beats the alternative. The ratios were measured; from 500000 indices on they
are compared at a precision of 24 significant bits. -/
def shuffles (bound count : Nat) : Bool :=
  if count < 163 then
    bound < 500000 && count > 11 && 5 * bound < (50 + 8 * count) * count
  else if bound < 500000 then
    bound < 270 * count
  else
    roundTo24Bits bound * ratioUnits < roundTo24Bits (wideRatio * roundTo24Bits count)

/-- `count` distinct indices below `bound`, in the order in which they were drawn. -/
def indices (bound count : Nat) : StateM ρ (List Nat) :=
  if bound ≥ UInt32.size then
    drawUntilNew RandomSource.word64 UInt64.size bound count ∅ []
  else if shuffles bound count then
    byShuffle bound count
  else if count < 163 then
    byRepair bound count
  else
    drawUntilNew RandomSource.word32 UInt32.size bound count ∅ []

end SeededGarbling.Sample
