/-
A session: the command from its arguments to its exit status.

The limits are checked first, then the file is read, then the program is
listed or loaded and run. What was printed or listed before a failure
stays.

* `list`: a program as lines of offset and instruction;
* `play`: a program run on an ordinary machine, its words printed as
  lines;
* `execute`: all that arguments ask for;
* `report`: the exit status and the two outputs of a command. A program
  that does not end within so many steps has none, nor has a question for
  help whose answer the device does not take.
-/
import Bytecode.Command.Arguments
import Bytecode.Command.Console
import Bytecode.Listing
import Bytecode.Machine.Run

namespace Bytecode.Command

/-- What the command finds around it. -/
structure Host where
  /-- The file at a path. -/
  read : String → Except SystemError Bytes
  /-- Where standard output leads. -/
  device : Device
  /-- Whether the log may be coloured. -/
  colour : Bool

/-- Whether a terminal of this kind shows colours, which a user may have
turned off. -/
def wantsColour (terminal noColour : Option String) : Bool :=
  match terminal, noColour with
  | some terminal, none => terminal != "dumb"
  | _, _ => false

/-- How the command has ended. -/
structure Ending where
  result : Except Failure Unit
  console : Console
  journal : Journal

/-- An entry of a listing as a line. -/
def entryLine (e : Entry) : String :=
  Text.hex 5 e.offset ++ "  " ++ e.instruction.text ++ "\n"

/-- Writes the entries of a listing, until one can not be decoded or not
be written. -/
def listEntries (c : Console) :
    List (Except DecodeError Entry) → Except Failure Unit × Console
  | [] =>
    match c.flush with
    | .ok c => (.ok (), c)
    | .error e => (.error (.unwritable e), c)
  | .error e :: _ => (.error (.undecodable e), c)
  | .ok e :: rest =>
    match c.write (entryLine e) with
    | .ok c => listEntries c rest
    | .error e => (.error (.unwritable e), c)

/-- Lists a program. -/
def list (program : Bytes) (c : Console) (j : Journal) : Ending :=
  let (result, c) := listEntries c (Listing.entries program)
  ⟨result, c, j⟩

/-- What a run and the writing of its output come to. A refused word is
reported as the error of writing it; any other fault comes before an
error of writing. -/
def verdict (answer : Except Fault Unit) (written : Except SystemError Console) :
    Except Failure Unit :=
  match answer, written with
  | .error (.outputRefused _), .error e => .error (.unwritable e)
  | .error fault, _ => .error (.faulted fault)
  | .ok (), .error e => .error (.unwritable e)
  | .ok (), .ok _ => .ok ()

/-- Loads a program and runs it, for at most so many steps. -/
def play (fuel : Nat) (limits : Limits) (program : Bytes) (c : Console) (j : Journal) :
    Option Ending :=
  match Machine.load .standard limits program with
  | .error e => some ⟨.error (.unloadable e), c, j⟩
  | .ok m =>
    match m.runNoting Journal.noteEvent fuel (Printer.onto c) (j.noteEvent m.loadEvent) with
    | none => none
    | some (out, j) =>
      let written := out.sink.finish
      let console :=
        match written with
        | .ok c => c
        | .error _ => out.sink.console
      some ⟨verdict out.answer written, console, j⟩

/-- Does what the arguments ask for. -/
def execute (fuel : Nat) (host : Host) (a : Arguments) : Option Ending :=
  let c := Console.blank host.device
  let j := Journal.blank a.verbosity
  match a.limits.check .standard with
  | .error e => some ⟨.error (.unloadable e), c, j⟩
  | .ok () =>
    match host.read a.program with
    | .error e => some ⟨.error (.unreadable a.program e), c, j⟩
    | .ok program =>
      let j := j.note (.read program.size a.program)
      if a.listing then some (list program c j) else play fuel a.limits program c j

/-- What is seen of a command from outside. -/
structure Report where
  exitCode : Nat
  stdout : String
  stderr : String
  deriving DecidableEq

/-- The diagnostic of a failure as a line. -/
def diagnostic (f : Failure) : String :=
  "bci: " ++ f.message ++ "\n"

/-- The report of a command that has ended. A failure is logged before
its diagnostic. -/
def Ending.report (colour : Bool) (e : Ending) : Report :=
  let stdout := e.console.close.delivered
  match e.result with
  | .ok () => ⟨0, stdout, e.journal.text colour⟩
  | .error f => ⟨1, stdout, (e.journal.note (.exiting f)).text colour ++ diagnostic f⟩

/-- The report of arguments that make no request. -/
def ArgumentError.report (e : ArgumentError) : Report :=
  ⟨1, "", e.message ++ "\nRun bci --help for more information.\n"⟩

/-- The answer to a question for help, if the device takes it. -/
def helpReport? (device : Device) : Option Report :=
  match device with
  | .working => some ⟨0, Request.helpText, ""⟩
  | .full => none

/-- The report of a command with these arguments. -/
def report (fuel : Nat) (host : Host) (arguments : List String) : Option Report :=
  match Request.parse arguments with
  | .error e => some e.report
  | .ok .help => helpReport? host.device
  | .ok (.execute a) => (execute fuel host a).map (Ending.report host.colour)

end Bytecode.Command
