import SeededGarbling.Bytes

/-!
# What commands ask of their surroundings

Commands read and write whole files and may ask for random bytes. A single directory in memory is
one such surrounding; there every run is determined by the files and the arguments.
-/

namespace SeededGarbling.CommandLine

/-- Why a file cannot be read or written. -/
inductive FileError where
  /-- Nothing is at the path. -/
  | notFound
  /-- A part of the path that should be a directory is a file. -/
  | notDirectory
  /-- A directory is at the path. -/
  | isDirectory
  /-- The path, or a name in it, is longer than any can be. -/
  | nameTooLong
  /-- The content should be text and is not. -/
  | notText
  /-- Something else, in the words of the surroundings. -/
  | other (message : String)
  deriving DecidableEq, Repr

/-- The wording of a fault of a file. -/
def FileError.message : FileError → String
  | notFound => "No such file or directory (os error 2)"
  | notDirectory => "Not a directory (os error 20)"
  | isDirectory => "Is a directory (os error 21)"
  | nameTooLong => "File name too long (os error 36)"
  | notText => "stream did not contain valid UTF-8"
  | other message => message

/-- What commands ask of their surroundings. -/
class Environment (m : Type → Type) where
  /-- The content of a file. -/
  readFile : (path : String) → m (Except FileError Bytes)
  /-- Replaces the content of a file, which need not exist before. -/
  writeFile : (path : String) → (content : Bytes) → m (Except FileError Unit)
  /-- The given number of random bytes. -/
  randomBytes : (count : Nat) → m Bytes

/-- A directory without directories in it: the names of its files with their contents. Files in the
directories that it lies in, where nothing is known to be, are named by the way that leads to them. -/
structure Directory where
  /-- The files. Of two files of one name, the first counts. -/
  files : List (String × Bytes)
  deriving DecidableEq, Repr

namespace Directory

/-- The content of the file of a name. -/
def content? (directory : Directory) (name : String) : Option Bytes :=
  directory.files.lookup name

/-- Replaces or adds a file. -/
def put (directory : Directory) (name : String) (content : Bytes) : Directory :=
  ⟨(name, content) :: directory.files.filter fun file => file.1 != name⟩

/-- A file that is put into the directory is what is found there. -/
@[simp] theorem content?_put_self (directory : Directory) (name : String) (content : Bytes) :
    (directory.put name content).content? name = some content := by
  simp [content?, put]

/-- What a path leads to. -/
inductive Place where
  /-- A directory. -/
  | directory
  /-- A name behind the way to a directory; whether a directory of that name is meant. -/
  | entry (base name : String) (asDirectory : Bool)
  deriving DecidableEq, Repr

/-- The most bytes that a name can have. -/
def maximumNameLength : Nat := 255

/-- The most bytes that a path can have. -/
def maximumPathLength : Nat := 4095

/-- The way to the directory above another. The outermost one has none above it. -/
def above (base : String) : String :=
  if base = "/" then base else base ++ "../"

/-- Why a name cannot be looked up, or that it leads nowhere. -/
def missing (name : String) : FileError :=
  if name.utf8ByteSize > maximumNameLength then .nameTooLong else .notFound

/-- Follows the steps of a path from a directory, whose way is given, on. Only the last step may
lead to something else than a directory. -/
def follow (directory : Directory) (asDirectory : Bool) (base : String) :
    (steps : List String) → Except FileError Place
  | [] => .ok .directory
  | "." :: rest => directory.follow asDirectory base rest
  | ".." :: rest => directory.follow asDirectory (above base) rest
  | [name] => .ok (.entry base name asDirectory)
  | name :: _ =>
    .error (if (directory.content? (base ++ name)).isSome then .notDirectory else missing name)

/-- What a path leads to. -/
def place (directory : Directory) (path : String) : Except FileError Place :=
  if path.utf8ByteSize > maximumPathLength then
    .error .nameTooLong
  else
    let base := if path.startsWith "/" then "/" else ""
    directory.follow (path.endsWith "/") base ((path.splitOn "/").filter (· ≠ ""))

/-- The content of the file at a path. -/
def read (directory : Directory) (path : String) : Except FileError Bytes := do
  match ← directory.place path with
  | .directory => throw .isDirectory
  | .entry base name asDirectory =>
    match directory.content? (base ++ name) with
    | none => throw (missing name)
    | some content => if asDirectory then throw .notDirectory else return content

/-- Replaces or adds the file at a path. -/
def write (directory : Directory) (path : String) (content : Bytes) :
    Except FileError Directory := do
  match ← directory.place path with
  | .directory => throw .isDirectory
  | .entry base name asDirectory =>
    if asDirectory then throw .isDirectory
    else if name.utf8ByteSize > maximumNameLength then throw .nameTooLong
    else return directory.put (base ++ name) content

/-- A path that leads somewhere leads there whatever the files are. -/
theorem follow_eq_ok {directory : Directory} {asDirectory : Bool} {base : String}
    {steps : List String} {place : Place}
    (h : directory.follow asDirectory base steps = .ok place) (other : Directory) :
    other.follow asDirectory base steps = .ok place := by
  fun_induction directory.follow asDirectory base steps with
  | case1 => exact h
  | case2 base rest ih => exact ih h
  | case3 base rest ih => exact ih h
  | case4 base name => simpa [follow] using h
  | case5 => exact nomatch h

/-- What was written is read back. -/
theorem read_of_write {directory result : Directory} {path : String} {content : Bytes}
    (h : directory.write path content = .ok result) : result.read path = .ok content := by
  have hplace : ∀ {place}, directory.place path = .ok place → result.place path = .ok place := by
    intro place hplace
    unfold Directory.place at hplace ⊢
    split at hplace
    · exact nomatch hplace
    · next hlength => simpa [hlength] using follow_eq_ok hplace result
  unfold write at h
  cases hpath : directory.place path with
  | error => simp [hpath, bind, Except.bind] at h
  | ok place =>
    cases place with
    | directory => simp [hpath, bind, Except.bind, throw, throwThe, MonadExceptOf.throw] at h
    | entry base name asDirectory =>
      simp only [hpath, bind, Except.bind, throw, throwThe, MonadExceptOf.throw] at h
      split at h
      · exact nomatch h
      · next hfile =>
        split at h
        · exact nomatch h
        · obtain rfl := Except.ok.inj h
          simp [read, hplace hpath, hfile, bind, Except.bind, pure, Except.pure]

/-- Every random byte is zero. -/
instance : Environment (StateM Directory) where
  readFile path := do return (← get).read path
  writeFile path content := do
    match (← get).write path content with
    | .ok directory =>
      set directory
      return .ok ()
    | .error error => return .error error
  randomBytes count := return List.replicate count 0

end Directory

end SeededGarbling.CommandLine
