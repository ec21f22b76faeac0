import SeededGarbling.Keystream.Generator

/-!
# Descriptions

A description is safe to log: it says what kind of object there is, and of a generator whether it
was seeded, but no byte of a key, a seed or a pending message.
-/

namespace SeededGarbling

namespace Description

/-- An object of which nothing else is told. -/
def redacted (kind : String) : String :=
  kind ++ " \x7b .. \x7d"

/-- An object of which one part is told. -/
def withPart (kind part value : String) : String :=
  kind ++ " \x7b " ++ part ++ ": " ++ value ++ " \x7d"

/-- An object that was chosen under a name. -/
def chosen (name description : String) : String :=
  name ++ "(" ++ description ++ ")"

end Description

open Description

/-- The name of a keyed function in descriptions. -/
def PrfAlgorithm.descriptiveName : PrfAlgorithm → String
  | blake3 => "Blake3"
  | hmacSha256 => "HmacSha256"

/-- The description of a keyed function. -/
def PrfAlgorithm.description (algorithm : PrfAlgorithm) : String :=
  redacted (algorithm.descriptiveName ++ "Prf")

/-- The description of a keyed function that was chosen by name. -/
def PrfAlgorithm.chosenDescription (algorithm : PrfAlgorithm) : String :=
  chosen algorithm.descriptiveName algorithm.description

/-- The name of a hash in descriptions. -/
def HashAlgorithm.descriptiveName : HashAlgorithm → String
  | blake3 => "Blake3"
  | sha256 => "Sha256"

/-- The description of a hasher that was chosen by name. -/
def HashAlgorithm.chosenDescription (algorithm : HashAlgorithm) : String :=
  chosen algorithm.descriptiveName (redacted (algorithm.descriptiveName ++ "Hash"))

/-- The name of a generator in descriptions. -/
def PrgAlgorithm.descriptiveName : PrgAlgorithm → String
  | chacha20 => "ChaCha20"
  | aes128Ctr => "Aes128Ctr"

/-- The description of a generator. -/
def StreamGenerator.description (generator : StreamGenerator) : String :=
  withPart (generator.algorithm.descriptiveName ++ "Prg") "seeded"
    (if generator.stream.isSome then "true" else "false")

/-- The description of a generator that was chosen by name. -/
def StreamGenerator.chosenDescription (generator : StreamGenerator) : String :=
  chosen generator.algorithm.descriptiveName generator.description

/-- The description of the permutation over a keyed function. -/
def Permutation.description (algorithm : PrfAlgorithm) : String :=
  withPart "LubyRackoffPrp" "prf" algorithm.description

end SeededGarbling
