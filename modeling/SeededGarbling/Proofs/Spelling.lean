import Mathlib.Algebra.Group.Nat.Defs
import SeededGarbling.CommandLine.Arguments
import SeededGarbling.Garbling.Config

/-!
# Spelled command lines

Every command can be asked for, with any choice of algorithms and for an adder of any width: there
is a command line that is understood so. It attaches every value to its option, so that the value
may be any text, and it ends the options in front of a file that is named by its place.
-/

namespace SeededGarbling.CommandLine

section Numbers

variable {below above maximum value : Nat} {fault : IntegerFault} {digits : List Char}

/-- Further digits make no number smaller. -/
theorem le_ofDigitChars (digits : List Char) (value : Nat) :
    value ≤ Nat.ofDigitChars 10 digits value := by
  induction digits generalizing value with
  | nil => exact Nat.le_refl value
  | cons c rest ih =>
    rw [Nat.ofDigitChars_cons]
    have hrest := ih (10 * value + (c.toNat - '0'.toNat))
    omega

/-- Digits are read as the number that they write, if it is in range. -/
theorem readMagnitude_of_digits (hdigits : ∀ c ∈ digits, c.isDigit = true)
    (hmaximum : Nat.ofDigitChars 10 digits value ≤ maximum) :
    readMagnitude maximum fault value digits = .ok (Nat.ofDigitChars 10 digits value) := by
  induction digits generalizing value with
  | nil => rfl
  | cons c rest ih =>
    rw [List.forall_mem_cons] at hdigits
    rw [Nat.ofDigitChars_cons] at hmaximum ⊢
    have hvalue := Nat.le_trans (le_ofDigitChars rest _) hmaximum
    simp only [readMagnitude, hdigits.1, Bool.not_true, Bool.false_eq_true, if_false,
      if_neg (Nat.not_lt.mpr hvalue)]
    exact ih hdigits.2 hmaximum

/-- A number in range that is written out is read back. -/
theorem readInteger_repr {n : Nat} (h : n ≤ above) :
    readInteger below above n.repr = .ok (n : Int) := by
  have hdigits : ∀ c ∈ Nat.toDigits 10 n, c.isDigit = true := fun c hc =>
    Nat.isDigit_of_mem_toDigits (by decide) (by decide) hc
  have hvalue : Nat.ofDigitChars 10 (Nat.toDigits 10 n) 0 = n :=
    Nat.ofDigitChars_toDigits (by decide) (by decide)
  have hread : readMagnitude above .tooLarge 0 (Nat.toDigits 10 n) = .ok n := by
    rw [readMagnitude_of_digits hdigits (by rwa [hvalue]), hvalue]
  unfold readInteger
  rw [Nat.toList_repr]
  cases hletters : Nat.toDigits 10 n with
  | nil => exact absurd hletters Nat.toDigits_ne_nil
  | cons letter rest =>
    rw [hletters] at hdigits hread
    have hletter : letter.isDigit = true := hdigits letter List.mem_cons_self
    have hplus : letter ≠ '+' := by rintro rfl; exact absurd hletter (by decide)
    have hminus : letter ≠ '-' := by rintro rfl; exact absurd hletter (by decide)
    simp [hplus, hminus, hread, Except.map]

/-- So is one of 64 bits. -/
theorem natural64_repr {parameter : Parameter} {n : Nat} (h : n < 2 ^ 64) :
    Given.natural64 parameter n.repr = .ok (some n) := by
  unfold Given.natural64 readNatural64
  have hsize : n ≤ UInt64.size - 1 := Nat.le_sub_one_of_lt h
  rw [readInteger_repr hsize]
  rfl

/-- So is the width of an adder. -/
theorem adderBits_repr {parameter : Parameter} {n : Nat} (h : n ≤ Adder.maximumBits) :
    Given.adderBits parameter n.repr = .ok (some n) := by
  have hsize : n ≤ UInt64.size / 2 - 1 := Nat.le_trans h (by decide)
  unfold Given.adderBits
  rw [readInteger_repr hsize]
  exact if_pos ⟨Int.natCast_nonneg n, Int.ofNat_le.mpr h⟩

end Numbers

section Options

variable {level : Level} {parameter : Parameter} {given given' : Given} {name text : String}

/-- Takes over the values of options, one behind the other. -/
def Given.storeAll (given : Given) (options : List (Parameter × String)) :
    Except UsageError Given :=
  options.foldlM (fun given option => given.store option.1 option.2) given

/-- An option with its value attached. -/
def attach (option : Parameter × String) : String :=
  "--" ++ option.1.long?.getD "" ++ "=" ++ option.2

/-- An option with its value attached is judged with this value, whatever it is. -/
theorem LevelState.read_attached {state : LevelState} (hopen : state.optionsEnded = false)
    (hoption : level.options.find? (fun option => option.long? == some name) = some parameter)
    (hname : ∀ c ∈ name.toList, (c != '=') = true) (text : String) :
    state.read level ("--" ++ name ++ "=" ++ text) = state.startOption parameter (some text) := by
  have htext : ("--" ++ name ++ "=" ++ text).toList =
      '-' :: '-' :: (name.toList ++ '=' :: text.toList) := by
    simp only [String.toList_append, List.append_assoc]
    rfl
  have hlong : state.readLong level (String.ofList (name.toList ++ '=' :: text.toList)) =
      state.startOption parameter (some text) := by
    have htake : (name.toList ++ '=' :: text.toList).takeWhile (· != '=') = name.toList := by
      rw [List.takeWhile_append_of_pos hname, List.takeWhile_cons_of_neg (by decide),
        List.append_nil]
    have hdrop : (name.toList ++ '=' :: text.toList).dropWhile (· != '=') = '=' :: text.toList := by
      rw [List.dropWhile_append_of_pos hname, List.dropWhile_cons_of_neg (by decide)]
    unfold readLong
    rw [String.toList_ofList]
    simp only [htake, hdrop, String.ofList_toList, hoption]
  unfold read
  rw [hopen, htext]
  cases hletters : name.toList ++ '=' :: text.toList with
  | nil => simp at hletters
  | cons letter rest =>
    rw [hletters] at hlong
    simpa using hlong

/-- The options of a level are told apart by their names. -/
theorem Level.find_option (h : parameter ∈ level.options) :
    level.options.find? (fun option => option.long? == some (parameter.long?.getD "")) =
      some parameter ∧ (parameter.long?.getD "").toList.all (· != '=') = true := by
  revert h
  cases level <;> cases parameter <;> decide

/-- An option of a level, with a value that is taken over, is taken over. -/
theorem LevelState.read_attach (hoption : parameter ∈ level.options)
    (hstore : given.store parameter text = .ok given') :
    LevelState.read { given := given } level (attach (parameter, text)) =
      .ok { given := given' } := by
  obtain ⟨hfind, hname⟩ := Level.find_option hoption
  rw [attach, LevelState.read_attached rfl hfind (List.all_eq_true.mp hname)]
  simp [startOption, resolve, hstore, bind, Except.bind]

/-- Options that are attached are taken over one behind the other. -/
theorem LevelState.readCommand_attach (rest : List String) {options : List (Parameter × String)}
    (hoptions : ∀ option ∈ options, option.1 ∈ level.options)
    (hstore : given.storeAll options = .ok given') :
    LevelState.readCommand { given := given } level (options.map attach ++ rest) =
      LevelState.readCommand { given := given' } level rest := by
  induction options generalizing given with
  | nil =>
    obtain rfl := Except.ok.inj hstore
    rfl
  | cons option options ih =>
    rw [List.forall_mem_cons] at hoptions
    rw [Given.storeAll, List.foldlM_cons] at hstore
    cases hfirst : given.store option.1 option.2 with
    | error cause => rw [hfirst] at hstore; exact nomatch hstore
    | ok stored =>
      rw [hfirst] at hstore
      rw [List.map_cons, List.cons_append, readCommand, LevelState.read_attach hoptions.1 hfirst]
      exact ih hoptions.2 hstore

end Options

section Lines

variable {config : GarblingConfig} {bits : Nat} {command : Command} {parameter : Parameter}

/-- The level on which a command is read. -/
def Command.level : Command → Level
  | .garble .. => .garble
  | .verify .. => .verify
  | .checkTables .. => .checkTables
  | .cutAndChoose .. => .cutAndChoose

/-- The options of a command of its own, with their values. -/
def Command.ownOptions : Command → List (Parameter × String)
  | .garble seed tables =>
    seed.toList.map (Parameter.seed, ·) ++ tables.toList.map (Parameter.tables, ·)
  | .verify seed digest => [(.seed, seed), (.digest, digest)]
  | .checkTables _ digest => [(.digest, digest)]
  | .cutAndChoose circuits checks rngSeed =>
    (.circuits, toString circuits) :: (.checks, toString checks) ::
      rngSeed.toList.map fun seed => (Parameter.rngSeed, toString seed)

/-- All options of a command with their values: those that settle the algorithms and the width come
first. -/
def Command.options (config : GarblingConfig) (bits : Nat) (command : Command) :
    List (Parameter × String) :=
  [(.prg, NamedChoice.name config.prg), (.prf, NamedChoice.name config.prf),
    (.hash, NamedChoice.name config.hash), (.bits, toString bits)] ++ command.ownOptions

/-- What stands behind the options. -/
def Command.placed : Command → List String
  | .checkTables file _ => ["--", file]
  | _ => []

/-- A command line that asks for a command and says all there is to say. -/
def Command.line (config : GarblingConfig) (bits : Nat) (command : Command) : List String :=
  command.level.name :: ((command.options config bits).map attach ++ command.placed)

/-- Files have names, and numbers have 64 bits. -/
def Command.Spellable : Command → Prop
  | .garble _ tables => ∀ file ∈ tables, file ≠ ""
  | .verify .. => True
  | .checkTables file _ => file ≠ ""
  | .cutAndChoose circuits checks rngSeed =>
    circuits < 2 ^ 64 ∧ checks < 2 ^ 64 ∧ ∀ seed ∈ rngSeed, seed < 2 ^ 64

/-- What the options of a command give. -/
def Command.given (config : GarblingConfig) (bits : Nat) (command : Command) : Given :=
  let settings : Given :=
    { prg := some config.prg, prf := some config.prf, hash := some config.hash, bits := some bits }
  match command with
  | .garble seed tables => { settings with seed := seed, tables := tables }
  | .verify seed digest => { settings with seed := some seed, digest := some digest }
  | .checkTables _ digest => { settings with digest := some digest }
  | .cutAndChoose circuits checks rngSeed =>
    { settings with circuits := some circuits, checks := some checks, rngSeed := rngSeed }

/-- The name of an algorithm is taken over as the algorithm. -/
@[simp] theorem algorithm_name {α : Type} [NamedChoice α] [LawfulNamedChoice α] (choice : α) :
    Given.algorithm parameter (NamedChoice.name choice) = .ok (some choice) := by
  simp [Given.algorithm]

/-- A path that is not empty is taken over. -/
@[simp] theorem path_of_ne {file : String} (h : file ≠ "") :
    Given.path parameter file = .ok (some file) := by
  simp [Given.path, h]

/-- The options of a command belong to its level. -/
theorem Command.mem_options_level (command : Command) :
    ∀ option ∈ command.options config bits, option.1 ∈ command.level.options := by
  cases command with
  | garble seed tables =>
    cases seed <;> cases tables <;>
      simp [options, ownOptions, level, Level.options, Level.ownOptions]
  | cutAndChoose circuits checks rngSeed =>
    cases rngSeed <;> simp [options, ownOptions, level, Level.options, Level.ownOptions]
  | verify | checkTables => simp [options, ownOptions, level, Level.options, Level.ownOptions]

/-- The values of the options are taken over. -/
theorem Command.storeAll_options (hbits : bits ≤ Adder.maximumBits) (h : command.Spellable) :
    Given.storeAll {} (command.options config bits) = .ok (command.given config bits) := by
  cases command with
  | garble seed tables =>
    cases seed <;> cases tables <;> simp_all [Given.storeAll, options, ownOptions, given,
      Given.store, Given.has, adderBits_repr, Spellable, bind, Except.bind, pure, Except.pure]
  | cutAndChoose circuits checks rngSeed =>
    cases rngSeed <;> simp_all [Given.storeAll, options, ownOptions, given, Given.store, Given.has,
      adderBits_repr, natural64_repr, Spellable, bind, Except.bind, pure, Except.pure]
  | verify | checkTables =>
    simp [Given.storeAll, options, ownOptions, given, Given.store, Given.has, adderBits_repr hbits,
      bind, Except.bind, pure, Except.pure]

/-- Behind the options the file is taken over, if there is one, and then nothing is missing. -/
theorem Command.exists_readCommand_placed (config : GarblingConfig) (bits : Nat)
    (h : command.Spellable) :
    ∃ given, LevelState.readCommand { given := command.given config bits } command.level
        command.placed = .ok given ∧
      Arguments.combine {} given command.level =
        .ok ⟨none, some config.prg, some config.prf, some config.hash, bits, command⟩ := by
  cases command with
  | garble | verify | cutAndChoose => exact ⟨_, rfl, rfl⟩
  | checkTables file digest =>
    have hstore : (given config bits (.checkTables file digest)).store .file file =
        .ok { given config bits (.checkTables file digest) with file := some file } := by
      simp [Given.store, Given.has, given, path_of_ne h, bind, Except.bind, pure, Except.pure]
    refine ⟨{ given config bits (.checkTables file digest) with file := some file }, ?_, rfl⟩
    change (LevelState.resolve ⟨_, some (.file, some file), true⟩ >>= _) = _
    simp only [LevelState.resolve, hstore]
    rfl

/-- Every command is understood from a command line, with every choice of algorithms and every
width. -/
theorem Command.parse_line (config : GarblingConfig) (hbits : bits ≤ Adder.maximumBits)
    (h : command.Spellable) :
    Arguments.parse (command.line config bits) =
      .ok ⟨none, some config.prg, some config.prf, some config.hash, bits, command⟩ := by
  obtain ⟨given, hplaced, hcombine⟩ := command.exists_readCommand_placed config bits h
  have hread : LevelState.readCommand {} command.level
      ((command.options config bits).map attach ++ command.placed) = .ok given := by
    rw [LevelState.readCommand_attach _ command.mem_options_level (storeAll_options hbits h),
      hplaced]
  have hparse : Arguments.parse (command.line config bits) =
      (LevelState.readCommand {} command.level
        ((command.options config bits).map attach ++ command.placed) >>= fun behind =>
          Arguments.combine {} behind command.level) := by
    cases command <;> rfl
  rw [hparse, hread]
  exact hcombine

end Lines

end SeededGarbling.CommandLine
