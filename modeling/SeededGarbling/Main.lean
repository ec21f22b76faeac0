import SeededGarbling.CommandLine.Program

/-!
# The program

Arguments, files and random bytes come from the system, and the lines of a report go to its two
streams.
-/

namespace SeededGarbling.CommandLine

/-- Whether a system reports a code, which it may negate. -/
def isCode (reported code : UInt32) : Bool :=
  reported == code || reported == -code

/-- Why the system did not read or write a file. -/
def FileError.ofSystem : IO.Error → FileError
  | .noFileOrDirectory .. => .notFound
  | .inappropriateType _ code _ => if isCode code 21 then .isDirectory else .notDirectory
  | error@(.invalidArgument _ code _) =>
    if isCode code 36 then .nameTooLong else .other (toString error)
  | error => .other (toString error)

/-- The result of an action on a file. -/
def attemptOnFile {α : Type} (action : IO α) : IO (Except FileError α) :=
  try
    return .ok (← action)
  catch error =>
    return .error (.ofSystem error)

instance : Environment IO where
  readFile path := attemptOnFile do
    let content ← IO.FS.readBinFile path
    return content.data.toList
  writeFile path content := attemptOnFile (IO.FS.writeBinFile path ⟨content.toArray⟩)
  randomBytes count := do
    let bytes ← IO.getRandomBytes (.ofNat count)
    return bytes.data.toList

end SeededGarbling.CommandLine

/-- Runs the program and reports on it. -/
def main (arguments : List String) : IO UInt32 := do
  let report ← (SeededGarbling.CommandLine.run arguments : IO SeededGarbling.CommandLine.Report)
  report.output.forM fun line => IO.println line
  (← IO.getStdout).flush
  report.errors.forM fun line => IO.eprintln line
  return .ofNat report.code
