/-
Standard output behind a buffer.

What is written stays in the buffer until the next line does not fit or
the buffer is flushed, and only then the device is asked to take it.

* `Console.write` and `Console.flush`: they fail where the device does,
  and then nothing has been written;
* `Console.close`: the console at the end of the command, with whatever
  the device still takes;
* `Printer`: the sink that writes each printed word as a line.
-/
import Bytecode.Command.Failure
import Bytecode.Sink

namespace Bytecode.Command

/-- Where standard output leads. -/
inductive Device where
  /-- All writes succeed. -/
  | working
  /-- All writes fail. -/
  | full
  deriving DecidableEq

/-- What a device has been given, and what waits in the buffer. -/
structure Console where
  device : Device
  delivered : String
  pending : String

namespace Console

/-- The number of bytes that the buffer holds. -/
def bufferSize : Nat := 8192

/-- A console on which nothing has been written. -/
def blank (device : Device) : Console :=
  ⟨device, "", ""⟩

/-- Gives what is in the buffer to the device. -/
def flush (c : Console) : Except SystemError Console :=
  if c.pending = "" then .ok c
  else
    match c.device with
    | .working => .ok { c with delivered := c.delivered ++ c.pending, pending := "" }
    | .full => .error .storageFull

/-- Writes a line, which is shorter than the buffer. -/
def write (c : Console) (line : String) : Except SystemError Console :=
  if c.pending.utf8ByteSize + line.utf8ByteSize ≤ bufferSize then
    .ok { c with pending := c.pending ++ line }
  else
    match c.flush with
    | .ok c => .ok { c with pending := line }
    | .error e => .error e

/-- Flushes what the device takes, and says nothing about the rest. -/
def close (c : Console) : Console :=
  match c.flush with
  | .ok c => c
  | .error _ => c

end Console

/-- A console for printed words, and the error that a write has met. -/
structure Printer where
  console : Console
  error : Option SystemError

namespace Printer

/-- A printer that has not printed yet. -/
def onto (c : Console) : Printer :=
  ⟨c, none⟩

/-- A printed word as a line. -/
def line (v : Word) : String :=
  v.text ++ "\n"

/-- Writes a word as a line. -/
def print (p : Printer) (v : Word) : Except Printer Printer :=
  match p.console.write (line v) with
  | .ok console => .ok { p with console }
  | .error e => .error { p with error := some e }

instance : Sink Printer where
  print := Printer.print

/-- The error that a write has met, or else the result of flushing. -/
def finish (p : Printer) : Except SystemError Console :=
  match p.error with
  | some e => .error e
  | none => p.console.flush

end Printer

end Bytecode.Command
