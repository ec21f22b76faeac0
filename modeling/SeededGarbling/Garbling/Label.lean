import SeededGarbling.Bytes
import SeededGarbling.Circuit.Basic

/-!
# Wire labels

A wire has one label for each of its two values and a permute bit. The signal bit that travels with
a label is the value masked by the permute bit, so it tells labels apart without telling the value.
-/

namespace SeededGarbling

/-- Sixteen bytes that stand for one value of one wire. -/
abbrev Label := Vector UInt8 16

/-- The two labels of a wire, and the mask of its signal bit. -/
structure WireLabels where
  /-- The label of the value false. -/
  zero : Label
  /-- The label of the value true. -/
  one : Label
  /-- The signal bit of the value false. -/
  permute : Bool
  deriving DecidableEq

namespace WireLabels

/-- The label of a value. -/
def label (labels : WireLabels) (value : Bool) : Label :=
  bif value then labels.one else labels.zero

/-- The signal bit of a value. -/
def signal (labels : WireLabels) (value : Bool) : Bool :=
  value ^^ labels.permute

/-- The value that a signal bit stands for. -/
@[simp] theorem signal_xor_permute (labels : WireLabels) (value : Bool) :
    (labels.signal value ^^ labels.permute) = value := by
  simp [signal]

end WireLabels

end SeededGarbling
