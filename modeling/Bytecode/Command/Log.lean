/-
The log of the command.

* `Severity` and `Verbosity`: how grave a record is, and down to which
  severity records are kept;
* `Record`: what is logged, with its severity, its source and its text;
* `Journal`: the records kept so far. A record that the verbosity does
  not admit leaves the journal as it is;
* `Record.line`: a record as a line, with or without colours.
-/
import Bytecode.Command.Failure
import Bytecode.Machine.Event

namespace Bytecode.Command

/-- How grave a record is. -/
inductive Severity where
  | error
  | warn
  | info
  | debug
  | trace
  deriving DecidableEq

namespace Severity

/-- The place of a severity, the gravest first. -/
def rank : Severity → Nat
  | error => 1
  | warn => 2
  | info => 3
  | debug => 4
  | trace => 5

/-- The name of a severity in the log. -/
def name : Severity → String
  | error => "ERROR"
  | warn => "WARN"
  | info => "INFO"
  | debug => "DEBUG"
  | trace => "TRACE"

/-- What switches a terminal to the look of a severity. -/
def style : Severity → String
  | error => "\x1b[1m\x1b[31m"
  | warn => "\x1b[1m\x1b[33m"
  | info => ""
  | debug | trace => "\x1b[2m"

end Severity

/-- Which records are kept. -/
inductive Verbosity where
  /-- None. -/
  | off
  /-- Those as grave as the severity or graver. -/
  | upTo (severity : Severity)
  deriving DecidableEq

namespace Verbosity

/-- Whether records of a severity are kept. -/
def admits (v : Verbosity) (s : Severity) : Bool :=
  match v with
  | off => false
  | upTo least => s.rank ≤ least.rank

/-- The verbosity with a name, in small or capital letters. -/
def ofName? (name : String) : Option Verbosity :=
  match name.toLower with
  | "off" => some off
  | "error" => some (upTo .error)
  | "warn" => some (upTo .warn)
  | "info" => some (upTo .info)
  | "debug" => some (upTo .debug)
  | "trace" => some (upTo .trace)
  | _ => none

end Verbosity

/-- What is logged. -/
inductive Record where
  /-- A file of so many bytes has been read. -/
  | read (size : Nat) (path : String)
  /-- Something has happened to the machine. -/
  | event (event : Event)
  /-- The command ends with a failure. -/
  | exiting (failure : Failure)
  deriving DecidableEq

namespace Record

/-- How grave a record is. -/
def severity : Record → Severity
  | read .. => .info
  | event (.executing ..) => .trace
  | event _ => .debug
  | exiting _ => .debug

/-- The part of the program that a record comes from. -/
def source : Record → String
  | read .. | exiting _ => "bci"
  | event _ => "byte_machine::machine"

/-- The text of a record. -/
def text : Record → String
  | read size path => "read " ++ Text.decimal size ++ " bytes from " ++ path
  | event e => e.text
  | exiting failure => "exiting after " ++ failure.term

/-- What resets a terminal to its usual look. -/
def plain : String := "\x1b[0m"

/-- The name of the severity in brackets. -/
def badge (r : Record) : String :=
  "[" ++ Text.padRight 5 r.severity.name ++ "]"

/-- A record as a line. -/
def line (colour : Bool) (r : Record) : String :=
  let badge :=
    if colour then plain ++ r.severity.style ++ r.badge ++ plain else r.badge
  badge ++ " " ++ r.source ++ ": " ++ r.text ++ "\n"

end Record

/-- The records kept so far. -/
structure Journal where
  verbosity : Verbosity
  /-- The records, the last one first. -/
  reversed : List Record

namespace Journal

/-- A journal without records. -/
def blank (verbosity : Verbosity) : Journal :=
  ⟨verbosity, []⟩

/-- Keeps a record, if the verbosity admits it. -/
def note (j : Journal) (r : Record) : Journal :=
  if j.verbosity.admits r.severity then { j with reversed := r :: j.reversed } else j

/-- Keeps an event of the machine, if the verbosity admits it. -/
def noteEvent (j : Journal) (e : Event) : Journal :=
  j.note (.event e)

/-- The records in order. -/
def records (j : Journal) : List Record :=
  j.reversed.reverse

/-- The records as text. -/
def text (colour : Bool) (j : Journal) : String :=
  String.join (j.records.map (Record.line colour))

end Journal

end Bytecode.Command
