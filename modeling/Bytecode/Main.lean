/-
The command line: reads the file that the arguments name, and shows the
report of the session.
-/
import Bytecode.Command.Session

open Bytecode Command

/-- More steps than any machine takes. -/
def patience : Nat := 4611686018427387904

/-- What the system says of an error. -/
def systemError : IO.Error → SystemError
  | .alreadyExists _ code details | .otherError code details | .resourceBusy code details
  | .resourceVanished code details | .unsupportedOperation code details
  | .hardwareFault code details | .unsatisfiedConstraints code details
  | .illegalOperation code details | .protocolError code details | .timeExpired code details
  | .interrupted _ code details | .noFileOrDirectory _ code details
  | .invalidArgument _ code details | .permissionDenied _ code details
  | .resourceExhausted _ code details | .inappropriateType _ code details
  | .noSuchThing _ code details => .ofCode code.toNat details
  | e => ⟨toString e, toString e⟩

/-- The file at a path. -/
def readFile (path : String) : IO (Except SystemError Bytes) := do
  try
    return .ok (← IO.FS.readBinFile path).data
  catch e =>
    return .error (systemError e)

/-- Shows a report, and answers the exit status. -/
def Bytecode.Command.Report.present (r : Report) : IO UInt32 := do
  let stdout ← IO.getStdout
  stdout.putStr r.stdout
  stdout.flush
  (← IO.getStderr).putStr r.stderr
  return UInt32.ofNat r.exitCode

/-- What is seen of a command that has no report. -/
def aborted : Report := ⟨101, "", ""⟩

/-- Runs the command. A report that standard output does not take is made
again for a device that takes nothing. -/
def main (arguments : List String) : IO UInt32 := do
  let file ←
    match Request.parse arguments with
    | .ok (.execute a) => readFile a.program
    | _ => pure (.ok #[])
  let colour := wantsColour (← IO.getEnv "TERM") (← IO.getEnv "NO_COLOR")
  let reportOn (device : Device) : Report :=
    (report patience ⟨fun _ => file, device, colour⟩ arguments).getD aborted
  try
    (reportOn .working).present
  catch _ =>
    (reportOn .full).present
