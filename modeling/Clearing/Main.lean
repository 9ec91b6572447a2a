import Clearing.CommandLine
import Std.Time.DateTime.Timestamp

/-!
# The program

Reads the files that the arguments name, runs the command line on them and
prints what comes of it.
-/

namespace Clearing

/-- What is found where a path points. -/
def readContent (path : String) : IO FileContent := do
  match ← (IO.FS.readBinFile path).toBaseIO with
  | .ok content => return .bytes content.toList
  | .error (.noFileOrDirectory ..) => return .missing
  | .error (.permissionDenied ..) => return .closed "Permission denied (os error 13)"
  | .error _ => return .unreadable

/-- The time of day. -/
def timeOfDay : IO Timestamp := do
  let now ← Std.Time.Timestamp.now
  let nanos := now.toNanosecondsSinceUnixEpoch.val
  return ⟨nanos / 1000000000, (nanos % 1000000000).toNat⟩

/-- Runs the program and returns the number that it leaves behind. -/
def runProgram (arguments : List String) : IO UInt32 := do
  let contents ← (CommandLine.paths arguments).mapM fun path => return (path, ← readContent path)
  let files (path : String) : FileContent := (contents.lookup path).getD .missing
  let started ← timeOfDay
  let exit := CommandLine.run (fun _ => started) files arguments
  match exit with
  | .printed report => IO.print report
  | .refused complaint => IO.eprintln ("Error: " ++ complaint.message)
  | .aborted => pure ()
  return exit.code.toUInt32

end Clearing

/-- The program. -/
def main (arguments : List String) : IO UInt32 :=
  Clearing.runProgram arguments
