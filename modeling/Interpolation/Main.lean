import Interpolation.CommandLine.Run

/-!
# The program

Reads what a run needs, and writes what it leaves behind.
-/

namespace Interpolation

open CommandLine (ReadFailure)

/-- The text of a file, if its bytes encode one. -/
def decodeText (bytes : ByteArray) : Except ReadFailure String :=
  match String.fromUTF8? bytes with
  | some text => .ok text
  | none => .error .notText

/-- The number of a system error, which may come with its sign turned around. -/
def systemErrorNumber (code : UInt32) : UInt32 := min code (-code)

/-- A failure of the system, by its number where its kind does not tell enough. -/
def readFailure : IO.Error → ReadFailure
  | .noFileOrDirectory .. => .missing
  | .permissionDenied .. => .denied
  | .inappropriateType _ code _ =>
    if systemErrorNumber code = 20 then .notFolder else .isFolder
  | e@(.invalidArgument _ code _) =>
    if systemErrorNumber code = 36 then .nameTooLong else .other (toString e)
  | e => .other (toString e)

/-- The text of the file at a path. -/
def readFile (path : String) : IO (Except ReadFailure String) := do
  try
    return decodeText (← IO.FS.readBinFile path)
  catch e =>
    return .error (readFailure e)

/-- The text on standard input. -/
def readStandardInput : IO (Except ReadFailure String) := do
  try
    return decodeText (← (← IO.getStdin).readBinToEnd)
  catch e =>
    return .error (readFailure e)

/-- Whether escape sequences are welcome. -/
def terminalHasStyles : IO Bool := do
  if (← IO.getEnv "NO_COLOR").isSome then
    return false
  match ← IO.getEnv "TERM" with
  | none => return false
  | some terminal => return terminal != "dumb"

end Interpolation

open Interpolation in
def main (arguments : List String) : IO UInt32 := do
  let (paths, readsInput) := CommandLine.sources arguments
  -- All that the run may read is read in advance; the run itself is a function.
  let files ← paths.mapM fun path => do return (path, ← readFile path)
  let standardInput ← if readsInput then readStandardInput else pure (.ok "")
  let outcome := CommandLine.run arguments
    { file := fun path => (files.lookup path).getD (.error .missing)
      standardInput
      color := ← terminalHasStyles }
  (← IO.getStdout).putStr outcome.output
  (← IO.getStderr).putStr outcome.errors
  return outcome.exitCode.toUInt32
