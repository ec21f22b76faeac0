/-!
# Choice of algorithms

Three roles are filled by name: the keyed function that derives labels and pads, the generator that
expands a seed, and the hash that commits to tables. Names are matched exactly, and the causes of
failure of all three are stated once.
-/

namespace SeededGarbling

/-- What an algorithm is chosen for. -/
inductive Role where
  /-- The keyed function behind labels and pads. -/
  | prf
  /-- The generator that expands a seed. -/
  | prg
  /-- The hash that commits to tables. -/
  | hash
  deriving DecidableEq, Repr

/-- The word a role goes by in messages and options. -/
def Role.name : Role → String
  | prf => "prf"
  | prg => "prg"
  | hash => "hash"

/-- Why a primitive refuses its key material or a request. -/
inductive PrimitiveError where
  /-- A key or a seed has the wrong length. -/
  | invalidKeyLength (expected actual : Nat)
  /-- A generator was asked for output before its first seed. -/
  | unseeded
  /-- More output was asked for than one call can yield. -/
  | outputTooLong (requested maximum : Nat)
  /-- No algorithm of the role has the name. -/
  | unknownAlgorithm (role : Role) (name : String)
  deriving DecidableEq, Repr

/-- The wording of a primitive's refusal. -/
def PrimitiveError.message : PrimitiveError → String
  | invalidKeyLength expected actual =>
    s!"invalid key length: expected {expected} bytes, got {actual}"
  | unseeded => "generator used before it was seeded"
  | outputTooLong requested maximum =>
    s!"requested {requested} output bytes, at most {maximum} are supported"
  | unknownAlgorithm role name => s!"unknown {role.name} algorithm: {name}"

/-- A finite choice whose members go by a name. -/
class NamedChoice (α : Type) where
  /-- The role that the members fill. -/
  role : Role
  /-- Every member, the default first. -/
  all : List α
  /-- The name of a member. -/
  name : α → String

/-- The member with exactly the given name. -/
def NamedChoice.ofName? {α : Type} [NamedChoice α] (text : String) : Option α :=
  (all : List α).find? fun choice => name choice == text

/-- The member with exactly the given name, or the reason that there is none. -/
def NamedChoice.ofName {α : Type} [NamedChoice α] (text : String) : Except PrimitiveError α :=
  match (ofName? text : Option α) with
  | some choice => .ok choice
  | none => .error (.unknownAlgorithm (role α) text)

/-- A choice whose members are found by their names. -/
class LawfulNamedChoice (α : Type) [NamedChoice α] : Prop where
  /-- A member is the first of its name. -/
  ofName?_name : ∀ choice : α, NamedChoice.ofName? (NamedChoice.name choice) = some choice

/-- The name of a member leads back to it. -/
@[simp] theorem NamedChoice.ofName_name {α : Type} [NamedChoice α] [LawfulNamedChoice α]
    (choice : α) : ofName (name choice) = .ok choice := by
  unfold ofName
  rw [LawfulNamedChoice.ofName?_name]

/-- Keyed functions of varying input and output length. -/
inductive PrfAlgorithm where
  /-- Keyed BLAKE3 with extended output. -/
  | blake3
  /-- The expansion step of HKDF over HMAC-SHA-256. -/
  | hmacSha256
  deriving DecidableEq, Repr, Inhabited

/-- Generators that expand a seed. -/
inductive PrgAlgorithm where
  /-- ChaCha with twenty rounds. -/
  | chacha20
  /-- AES-128 in counter mode. -/
  | aes128Ctr
  deriving DecidableEq, Repr, Inhabited

/-- Hashes with 32-byte digests. -/
inductive HashAlgorithm where
  /-- BLAKE3. -/
  | blake3
  /-- SHA-256. -/
  | sha256
  deriving DecidableEq, Repr, Inhabited

instance : NamedChoice PrfAlgorithm where
  role := .prf
  all := [.blake3, .hmacSha256]
  name
    | .blake3 => "blake3"
    | .hmacSha256 => "hmac-sha256"

instance : LawfulNamedChoice PrfAlgorithm where
  ofName?_name choice := by cases choice <;> rfl

instance : NamedChoice PrgAlgorithm where
  role := .prg
  all := [.chacha20, .aes128Ctr]
  name
    | .chacha20 => "chacha20"
    | .aes128Ctr => "aes128-ctr"

instance : LawfulNamedChoice PrgAlgorithm where
  ofName?_name choice := by cases choice <;> rfl

instance : NamedChoice HashAlgorithm where
  role := .hash
  all := [.blake3, .sha256]
  name
    | .blake3 => "blake3"
    | .sha256 => "sha256"

instance : LawfulNamedChoice HashAlgorithm where
  ofName?_name choice := by cases choice <;> rfl

end SeededGarbling
