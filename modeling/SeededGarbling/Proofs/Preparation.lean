import SeededGarbling.Keystream.Recorded
import SeededGarbling.Proofs.Outcome

/-!
# What a run is prepared with

A run starts its generator anew and reads one key from it. So the cipher that it works with is a
function of the algorithms and the seed; where the generator stood before does not matter, and the
hasher is not touched.
-/

namespace SeededGarbling

open Traversal

/-- The cipher that a key leads to. -/
def PrfAlgorithm.cipher (algorithm : PrfAlgorithm) (key : Bytes) :
    Except PrimitiveError GateCipher := do
  let labels ← algorithm.keyed key
  let pads ← algorithm.keyed publicKey
  return ⟨labels, pads⟩

/-- Every key of the right length leads to one. -/
theorem PrfAlgorithm.exists_cipher (algorithm : PrfAlgorithm) (key : Vector UInt8 32) :
    ∃ cipher, algorithm.cipher key.toList = .ok cipher := by
  have hkey : key.toList.length = algorithm.keyLength := Vector.length_toList
  have hpublic : publicKey.length = algorithm.keyLength := rfl
  obtain ⟨labels, hlabels⟩ := algorithm.exists_keyed hkey
  obtain ⟨pads, hpads⟩ := algorithm.exists_keyed hpublic
  unfold cipher
  rw [hlabels, hpads]
  exact ⟨_, rfl⟩

/-- Its pads come from the public key. -/
theorem PrfAlgorithm.keyed_publicKey_of_cipher {algorithm : PrfAlgorithm} {key : Bytes}
    {cipher : GateCipher} (h : algorithm.cipher key = .ok cipher) :
    algorithm.keyed publicKey = .ok cipher.pads := by
  obtain ⟨labels, _, h⟩ := bind_eq_ok_iff.mp h
  obtain ⟨pads, hpads, h⟩ := bind_eq_ok_iff.mp h
  cases h
  exact hpads

/-- The cipher that a seed leads to, wherever a generator stands. -/
def PrgAlgorithm.cipher (prg : PrgAlgorithm) (algorithm : PrfAlgorithm) (seed : Bytes) :
    Except PrimitiveError GateCipher :=
  if seed.length = prg.seedLength then
    algorithm.cipher ((prg.keystream seed).slice 0 32).toList
  else
    .error (.invalidKeyLength prg.seedLength seed.length)

namespace Generator

variable {γ : Type} [Generator γ] {seed : Bytes} {generator seeded : γ} {cause : PrimitiveError}

/-- Starts the stream of a seed and reads a key from it. -/
def key (seed : Bytes) : ExceptT PrimitiveError (StateM γ) (Vector UInt8 32) := do
  Generator.seed seed
  Generator.fill 32

/-- A generator that refuses the seed is asked for nothing else. -/
theorem run_key_of_refused (h : (Generator.seed seed).run generator = (.error cause, seeded)) :
    (key seed).run generator = (.error cause, seeded) :=
  run_bind_of_error h

/-- Otherwise the key is what it yields next. -/
theorem run_key_of_seeded (h : (Generator.seed seed).run generator = (.ok (), seeded)) :
    (key seed).run generator = (Generator.fill 32).run seeded :=
  run_bind_of_ok h

/-- Two generators agree on a seed if they have one key for it, or refuse it for one reason. -/
def Agree {γ δ : Type} [Generator γ] [Generator δ] (seed : Bytes) (first : γ) (second : δ) : Prop :=
  ((key seed).run first).1 = ((key seed).run second).1

end Generator

namespace StreamGenerator

variable {generator : StreamGenerator} {seed : Bytes}

/-- A seed of the right length starts its stream. -/
theorem run_seed_of_length (h : seed.length = generator.algorithm.seedLength) :
    (Generator.seed seed).run generator = (.ok (), ⟨generator.algorithm, some ⟨seed, 0⟩⟩) :=
  if_pos h

/-- Any other leaves the generator as it was. -/
theorem run_seed_of_length_ne (h : seed.length ≠ generator.algorithm.seedLength) :
    (Generator.seed seed).run generator =
      (.error (.invalidKeyLength generator.algorithm.seedLength seed.length), generator) :=
  if_neg h

/-- The key of a seed is the beginning of its stream. -/
theorem run_key_of_length (h : seed.length = generator.algorithm.seedLength) :
    (Generator.key seed).run generator = (.ok ((generator.algorithm.keystream seed).slice 0 32),
      ⟨generator.algorithm, some ⟨seed, 0 + generator.algorithm.consumed 32⟩⟩) := by
  rw [Generator.run_key_of_seeded (run_seed_of_length h)]
  rfl

/-- There is none for a seed of another length. -/
theorem run_key_of_length_ne (h : seed.length ≠ generator.algorithm.seedLength) :
    (Generator.key seed).run generator =
      (.error (.invalidKeyLength generator.algorithm.seedLength seed.length), generator) :=
  Generator.run_key_of_refused (run_seed_of_length_ne h)

/-- Hence a seed leads to one cipher, wherever the generator stands. -/
theorem cipher_of_key (algorithm : PrfAlgorithm) (seed : Bytes) (generator : StreamGenerator) :
    (((Generator.key seed).run generator).1 >>= fun key => algorithm.cipher key.toList) =
      generator.algorithm.cipher algorithm seed := by
  unfold PrgAlgorithm.cipher
  by_cases hseed : seed.length = generator.algorithm.seedLength
  · rw [if_pos hseed, run_key_of_length hseed]
    exact pure_bind _ _
  · rw [if_neg hseed, run_key_of_length_ne hseed]
    rfl

/-- Asking for a key does not change the algorithm. -/
theorem algorithm_run_key (seed : Bytes) (generator : StreamGenerator) :
    ((Generator.key seed).run generator).2.algorithm = generator.algorithm := by
  by_cases hseed : seed.length = generator.algorithm.seedLength
  · rw [run_key_of_length hseed]
  · rw [run_key_of_length_ne hseed]

/-- Nor does reading. -/
theorem algorithm_run_fill (n : Nat) (generator : StreamGenerator) :
    ((Generator.fill n).run generator).2.algorithm = generator.algorithm := by
  change (generator.read n).2.algorithm = generator.algorithm
  unfold read
  cases generator.stream with
  | none => rfl
  | some position => rfl

/-- Whatever they have been used for, generators of one algorithm agree on every seed. -/
theorem agree_of_algorithm_eq {other : StreamGenerator} (h : generator.algorithm = other.algorithm)
    (seed : Bytes) : Generator.Agree seed generator other := by
  unfold Generator.Agree
  by_cases hseed : seed.length = generator.algorithm.seedLength
  · rw [run_key_of_length hseed, run_key_of_length (h ▸ hseed), h]
  · rw [run_key_of_length_ne hseed, run_key_of_length_ne (h ▸ hseed), h]

end StreamGenerator

namespace Recorded

variable {γ : Type} [Generator γ]

/-- A seed is noted down and handed on. -/
theorem run_seed (seed : Bytes) (recorded : Recorded γ) :
    (Generator.seed seed).run recorded = (((Generator.seed seed).run recorded.generator).1,
      ⟨((Generator.seed seed).run recorded.generator).2,
        recorded.calls.push (.seed seed.length)⟩) := rfl

/-- So is a read. -/
theorem run_fill (n : Nat) (recorded : Recorded γ) :
    (Generator.fill n).run recorded = (((Generator.fill n).run recorded.generator).1,
      ⟨((Generator.fill n).run recorded.generator).2, recorded.calls.push (.fill n)⟩) := rfl

/-- A key is asked for in two calls, unless the seed is refused. -/
theorem run_key (seed : Bytes) (recorded : Recorded γ) :
    (Generator.key seed).run recorded = (((Generator.key seed).run recorded.generator).1,
      ⟨((Generator.key seed).run recorded.generator).2,
        recorded.calls ++ match ((Generator.seed seed).run recorded.generator).1 with
          | .ok _ => #[.seed seed.length, .fill 32]
          | .error _ => #[.seed seed.length]⟩) := by
  have hnoted := run_seed seed recorded
  rcases hseed : (Generator.seed seed).run recorded.generator with ⟨cause | _, seeded⟩
  · rw [hseed] at hnoted
    rw [Generator.run_key_of_refused hseed, Generator.run_key_of_refused hnoted]
    rfl
  · rw [hseed] at hnoted
    rw [Generator.run_key_of_seeded hseed, Generator.run_key_of_seeded hnoted, run_fill]
    have hcalls : (recorded.calls.push (.seed seed.length)).push (.fill 32) =
        recorded.calls ++ #[.seed seed.length, .fill 32] := by
      apply Array.toList_inj.mp
      simp
    rw [hcalls]

end Recorded

namespace Garbling

section Ciphers

variable {γ : Type} [Generator γ]

/-- The cipher of a run is that of the key for its seed, and all that is done for it is to ask the
generator for the key. -/
theorem run_cipherOfSeed (algorithm : PrfAlgorithm) (seed : Bytes) (workspace : Workspace γ) :
    (cipherOfSeed algorithm seed).run workspace =
      ((((Generator.key seed).run workspace.generator).1 >>= fun key =>
          algorithm.cipher key.toList).mapError .key,
        ⟨((Generator.key seed).run workspace.generator).2, workspace.hasher⟩) := by
  have hfirst := Run.run_onGenerator (Generator.seed seed) workspace
  rcases hseed : (Generator.seed seed).run workspace.generator with ⟨cause | _, seeded⟩
  · rw [hseed] at hfirst
    rw [Generator.run_key_of_refused hseed]
    exact run_bind_of_error hfirst
  rw [hseed] at hfirst
  rw [Generator.run_key_of_seeded hseed]
  have hsecond := Run.run_onGenerator (Generator.fill (γ := γ) 32) ⟨seeded, workspace.hasher⟩
  unfold cipherOfSeed PrfAlgorithm.keyLength
  rw [run_bind_of_ok hfirst]
  rcases hfill : (Generator.fill 32).run seeded with ⟨cause | key, filled⟩
  · rw [hfill] at hsecond
    exact run_bind_of_error hsecond
  rw [hfill] at hsecond
  rw [run_bind_of_ok hsecond]
  change _ = ((algorithm.cipher key.toList).mapError GarbleError.key, _)
  unfold PrfAlgorithm.cipher
  cases hlabels : algorithm.keyed key.toList with
  | error cause => rfl
  | ok labels =>
    cases hpads : algorithm.keyed publicKey with
    | error cause => rfl
    | ok pads => rfl

/-- A run with a circuit that is not in order does not reach the generator. -/
theorem run_prepare_of_invalid (algorithm : PrfAlgorithm) {circuit : Circuit} {fault : CircuitError}
    (h : circuit.validate = .error fault) (seed : Bytes) (workspace : Workspace γ) :
    (prepare algorithm circuit seed).run workspace = (.error (.circuit fault), workspace) := by
  have hcheck : (Run.ofCircuit circuit.validate : Run γ Unit).run workspace =
      (.error (.circuit fault), workspace) := by
    rw [Run.run_ofCircuit, h]
    rfl
  exact run_bind_of_error hcheck

/-- Otherwise it is prepared as its seed is. -/
theorem run_prepare_of_valid (algorithm : PrfAlgorithm) {circuit : Circuit}
    (h : circuit.validate = .ok ()) (seed : Bytes) (workspace : Workspace γ) :
    (prepare algorithm circuit seed).run workspace =
      (cipherOfSeed algorithm seed).run workspace := by
  have hcheck : (Run.ofCircuit circuit.validate : Run γ Unit).run workspace =
      (.ok (), workspace) := by
    rw [Run.run_ofCircuit, h]
    rfl
  exact run_bind_of_ok hcheck

/-- No key, no preparation. -/
theorem run_prepare_of_key_refused (algorithm : PrfAlgorithm) {circuit : Circuit}
    (h : circuit.validate = .ok ()) {seed : Bytes} {workspace : Workspace γ} {generator : γ}
    {cause : PrimitiveError}
    (hkey : (Generator.key seed).run workspace.generator = (.error cause, generator)) :
    (prepare algorithm circuit seed).run workspace =
      (.error (.key cause), ⟨generator, workspace.hasher⟩) := by
  rw [run_prepare_of_valid algorithm h, run_cipherOfSeed, hkey]
  rfl

/-- With a key the run has the cipher that the key leads to. -/
theorem run_prepare_of_cipher (algorithm : PrfAlgorithm) {circuit : Circuit}
    (h : circuit.validate = .ok ()) {seed : Bytes} {workspace : Workspace γ} {generator : γ}
    {key : Vector UInt8 32} {cipher : GateCipher}
    (hkey : (Generator.key seed).run workspace.generator = (.ok key, generator))
    (hcipher : algorithm.cipher key.toList = .ok cipher) :
    (prepare algorithm circuit seed).run workspace =
      (.ok cipher, ⟨generator, workspace.hasher⟩) := by
  have hbind : (Except.ok key >>= fun key => algorithm.cipher key.toList) = .ok cipher := hcipher
  rw [run_prepare_of_valid algorithm h, run_cipherOfSeed, hkey, hbind]
  rfl

/-- There always is one, so there is no way left to fail. -/
theorem exists_run_prepare_of_key (algorithm : PrfAlgorithm) {circuit : Circuit}
    (h : circuit.validate = .ok ()) {seed : Bytes} {workspace : Workspace γ} {generator : γ}
    {key : Vector UInt8 32}
    (hkey : (Generator.key seed).run workspace.generator = (.ok key, generator)) :
    ∃ cipher, (prepare algorithm circuit seed).run workspace =
      (.ok cipher, ⟨generator, workspace.hasher⟩) := by
  obtain ⟨cipher, hcipher⟩ := algorithm.exists_cipher key
  exact ⟨cipher, run_prepare_of_cipher algorithm h hkey hcipher⟩

/-- And then the circuit is garbled. -/
theorem exists_run_garble_of_key (algorithm : PrfAlgorithm) {circuit : Circuit}
    (h : circuit.validate = .ok ()) {seed : Bytes} {workspace : Workspace γ} {generator : γ}
    {key : Vector UInt8 32}
    (hkey : (Generator.key seed).run workspace.generator = (.ok key, generator)) :
    ∃ result : Garbling, (garble algorithm circuit seed).run workspace =
      (.ok result, ⟨generator, workspace.hasher.reset⟩) := by
  obtain ⟨cipher, hprepare⟩ := exists_run_prepare_of_key algorithm h hkey
  obtain ⟨result, _, hrun⟩ := run_garble_of_prepared hprepare
  exact ⟨result, hrun⟩

/-- Preparing a run does not touch the hasher. -/
theorem hasher_run_prepare (algorithm : PrfAlgorithm) (circuit : Circuit) (seed : Bytes)
    (workspace : Workspace γ) :
    ((prepare algorithm circuit seed).run workspace).2.hasher = workspace.hasher := by
  cases hvalid : circuit.validate with
  | error fault => rw [run_prepare_of_invalid algorithm hvalid]
  | ok => rw [run_prepare_of_valid algorithm hvalid, run_cipherOfSeed]

/-- Generators that agree on the seed lead to one cipher. -/
theorem outcome_cipherOfSeed_of_agree {δ : Type} [Generator δ] (algorithm : PrfAlgorithm)
    {seed : Bytes} {workspace : Workspace γ} {other : Workspace δ}
    (h : Generator.Agree seed workspace.generator other.generator) :
    ((cipherOfSeed algorithm seed).run workspace).1 =
      ((cipherOfSeed algorithm seed).run other).1 := by
  rw [run_cipherOfSeed, run_cipherOfSeed]
  dsimp only
  rw [h]

/-- So they prepare a run with one outcome. -/
theorem outcome_prepare_of_agree {δ : Type} [Generator δ] (algorithm : PrfAlgorithm)
    (circuit : Circuit) {seed : Bytes} {generator : γ} {other : δ}
    (h : Generator.Agree seed generator other) (hasher hasher' : Hasher) :
    ((prepare algorithm circuit seed).run ⟨generator, hasher⟩).1 =
      ((prepare algorithm circuit seed).run ⟨other, hasher'⟩).1 := by
  cases hvalid : circuit.validate with
  | error fault => rw [run_prepare_of_invalid algorithm hvalid, run_prepare_of_invalid algorithm hvalid]
  | ok =>
    rw [run_prepare_of_valid algorithm hvalid, run_prepare_of_valid algorithm hvalid]
    exact outcome_cipherOfSeed_of_agree algorithm h

end Ciphers

/-- A generator makes the cipher of the seed, wherever it stands. -/
theorem run_cipherOfSeed_stream (algorithm : PrfAlgorithm) (seed : Bytes)
    (generator : StreamGenerator) (hasher : Hasher) :
    ∃ after : StreamGenerator, (cipherOfSeed algorithm seed).run ⟨generator, hasher⟩ =
      ((generator.algorithm.cipher algorithm seed).mapError .key, ⟨after, hasher⟩) ∧
      after.algorithm = generator.algorithm := by
  rw [run_cipherOfSeed, StreamGenerator.cipher_of_key]
  exact ⟨_, rfl, StreamGenerator.algorithm_run_key seed generator⟩

/-- Under observation it does the same, and is seen to be asked for two things. -/
theorem run_cipherOfSeed_recorded (algorithm : PrfAlgorithm) (seed : Bytes)
    (recorded : Recorded StreamGenerator) (hasher : Hasher) :
    ∃ after : Recorded StreamGenerator, (cipherOfSeed algorithm seed).run ⟨recorded, hasher⟩ =
      ((recorded.generator.algorithm.cipher algorithm seed).mapError .key, ⟨after, hasher⟩) ∧
      after.generator.algorithm = recorded.generator.algorithm ∧
      ∀ cipher, recorded.generator.algorithm.cipher algorithm seed = .ok cipher →
        after.calls = recorded.calls ++ #[.seed seed.length, .fill 32] := by
  rw [run_cipherOfSeed, Recorded.run_key, StreamGenerator.cipher_of_key]
  refine ⟨_, rfl, StreamGenerator.algorithm_run_key seed recorded.generator, ?_⟩
  intro cipher h
  by_cases hseed : seed.length = recorded.generator.algorithm.seedLength
  · rw [StreamGenerator.run_seed_of_length hseed]
  · rw [PrgAlgorithm.cipher, if_neg hseed] at h
    cases h

/-- The cipher of a run, if its circuit and its seed are in order. -/
def preparation (prg : PrgAlgorithm) (algorithm : PrfAlgorithm) (circuit : Circuit) (seed : Bytes) :
    Except GarbleError GateCipher := do
  circuit.validate.mapError .circuit
  (prg.cipher algorithm seed).mapError .key

/-- A valid circuit and a seed of the right length have one. -/
theorem exists_preparation (algorithm : PrfAlgorithm) {prg : PrgAlgorithm} {circuit : Circuit}
    {seed : Bytes} (hvalid : circuit.validate = .ok ()) (hseed : seed.length = prg.seedLength) :
    ∃ cipher, preparation prg algorithm circuit seed = .ok cipher := by
  obtain ⟨cipher, hcipher⟩ := algorithm.exists_cipher ((prg.keystream seed).slice 0 32)
  unfold preparation PrgAlgorithm.cipher
  rw [hvalid, if_pos hseed, hcipher]
  exact ⟨cipher, rfl⟩

/-- A generator of one of the algorithms garbles any valid circuit from any seed of the right length. -/
theorem exists_run_garble_stream (algorithm : PrfAlgorithm) {circuit : Circuit}
    (hvalid : circuit.validate = .ok ()) {seed : Bytes} {workspace : Workspace StreamGenerator}
    (hseed : seed.length = workspace.generator.algorithm.seedLength) :
    ∃ (result : Garbling) (after : Workspace StreamGenerator),
      (garble algorithm circuit seed).run workspace = (.ok result, after) := by
  obtain ⟨result, hrun⟩ :=
    exists_run_garble_of_key algorithm hvalid (StreamGenerator.run_key_of_length hseed)
  exact ⟨result, _, hrun⟩

/-- What a run is prepared with does not depend on where the generator stands. -/
theorem run_prepare_stream (algorithm : PrfAlgorithm) (circuit : Circuit) (seed : Bytes)
    (generator : StreamGenerator) (hasher : Hasher) :
    ∃ after : StreamGenerator, (prepare algorithm circuit seed).run ⟨generator, hasher⟩ =
      (preparation generator.algorithm algorithm circuit seed, ⟨after, hasher⟩) ∧
      after.algorithm = generator.algorithm := by
  unfold preparation
  cases hvalid : circuit.validate with
  | error fault =>
    rw [run_prepare_of_invalid algorithm hvalid]
    exact ⟨generator, rfl, rfl⟩
  | ok =>
    obtain ⟨after, hrun, halgorithm⟩ := run_cipherOfSeed_stream algorithm seed generator hasher
    rw [run_prepare_of_valid algorithm hvalid, hrun]
    exact ⟨after, rfl, halgorithm⟩

/-- Under observation neither; the hasher is left alone, and a preparation that succeeds has asked the
generator for a seed and a key. -/
theorem run_prepare_recorded (algorithm : PrfAlgorithm) (circuit : Circuit) (seed : Bytes)
    (recorded : Recorded StreamGenerator) (hasher : Hasher) :
    ∃ after : Recorded StreamGenerator,
      (prepare algorithm circuit seed).run ⟨recorded, hasher⟩ =
        (preparation recorded.generator.algorithm algorithm circuit seed, ⟨after, hasher⟩) ∧
      after.generator.algorithm = recorded.generator.algorithm ∧
      ∀ cipher, preparation recorded.generator.algorithm algorithm circuit seed = .ok cipher →
        after.calls = recorded.calls ++ #[.seed seed.length, .fill 32] := by
  unfold preparation
  cases hvalid : circuit.validate with
  | error fault =>
    rw [run_prepare_of_invalid algorithm hvalid]
    refine ⟨recorded, rfl, rfl, ?_⟩
    intro cipher h
    cases h
  | ok =>
    obtain ⟨after, hrun, halgorithm, hcalls⟩ :=
      run_cipherOfSeed_recorded algorithm seed recorded hasher
    rw [run_prepare_of_valid algorithm hvalid, hrun]
    refine ⟨after, rfl, halgorithm, ?_⟩
    intro cipher h
    cases hcipher : recorded.generator.algorithm.cipher algorithm seed with
    | error cause =>
      rw [hcipher] at h
      cases h
    | ok found => exact hcalls found hcipher

end Garbling

end SeededGarbling
