import SeededGarbling.Garbling.Workspace

/-!
# Configurations

The garbler and whoever audits the result have to agree on all three algorithms.
-/

namespace SeededGarbling

/-- The algorithms of a run. -/
structure GarblingConfig where
  /-- The generator that expands the seed. -/
  prg : PrgAlgorithm := .chacha20
  /-- The function that derives labels and pads. -/
  prf : PrfAlgorithm := .blake3
  /-- The hash that commits to the tables. -/
  hash : HashAlgorithm := .blake3
  deriving DecidableEq, Repr, Inhabited

namespace GarblingConfig

/-- Bytes in a seed. -/
def seedLength (config : GarblingConfig) : Nat :=
  config.prg.seedLength

/-- A generator that was never seeded and a hasher that has absorbed nothing. -/
def workspace (config : GarblingConfig) : Workspace StreamGenerator where
  generator := .new config.prg
  hasher := .new config.hash

end GarblingConfig

end SeededGarbling
