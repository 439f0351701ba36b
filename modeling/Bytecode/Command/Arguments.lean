/-
The arguments of the command.

Arguments are read from left to right. Before `--`, an argument that
starts with `-` is an option, four of which take the next argument as
their value, whatever it looks like. Every other argument, and each one
behind `--`, names the program, and only one may. A question for help is
answered once all arguments have been read.

* `Arguments`: what the command is to do, with a default for each option;
* `Request.parse`: the request that the arguments make;
* `ArgumentError`: why they make none.
-/
import Bytecode.Command.Log
import Bytecode.Text.Unsigned

namespace Bytecode.Command

/-- Why a value can not be given to an option. -/
inductive ValueError where
  /-- The option has a value already. -/
  | duplicate
  /-- The value is not a number. -/
  | number (error : Text.NumberError)
  /-- There is no verbosity with this name. -/
  | unknownVerbosity
  deriving DecidableEq

/-- The text of the reason. -/
def ValueError.message : ValueError → String
  | duplicate => "duplicate values provided"
  | number error => error.message
  | unknownVerbosity =>
      "attempted to convert a string that doesn't match an existing log level"

/-- Why arguments make no request. -/
inductive ArgumentError where
  /-- The argument is no option, or a second program. -/
  | unrecognized (argument : String)
  /-- The option is the last argument, but takes a value. -/
  | missingValue (option : String)
  /-- The option does not take the value. -/
  | badValue (option value : String) (reason : ValueError)
  /-- An option follows a question for help. -/
  | optionAfterHelp
  /-- No argument names a program. -/
  | missingProgram
  deriving DecidableEq

/-- The text of an argument error. -/
def ArgumentError.message : ArgumentError → String
  | unrecognized argument => "Unrecognized argument: " ++ argument ++ "\n"
  | missingValue option => "No value provided for option '" ++ option ++ "'.\n"
  | badValue option value reason =>
      "Error parsing option '" ++ option ++ "' with value '" ++ value ++ "': " ++
        reason.message ++ "\n"
  | optionAfterHelp => "Trailing arguments are not allowed after `help`."
  | missingProgram => "Required positional arguments not provided:\n    program\n"

/-- What the command is to do. -/
structure Arguments where
  /-- The path of the program. -/
  program : String
  limits : Limits
  /-- Whether the program is listed instead of run. -/
  listing : Bool
  verbosity : Verbosity
  deriving DecidableEq

/-- What arguments ask for. -/
inductive Request where
  | help
  | execute (arguments : Arguments)
  deriving DecidableEq

/-- The options that take a value. -/
inductive Setting where
  | limit (resource : Resource)
  | verbosity
  deriving DecidableEq

/-- The setting that an option sets. -/
def Setting.ofOption? : String → Option Setting
  | "--stack-size" => some (limit .stack)
  | "--num-registers" => some (limit .registers)
  | "--max-program-bytes" => some (limit .memory)
  | "--log-level" => some verbosity
  | _ => none

/-- What the arguments read so far have said. -/
structure Choices where
  stackSize : Option Nat
  registerCount : Option Nat
  memorySize : Option Nat
  verbosity : Option Verbosity
  listing : Bool
  help : Bool
  program : Option String
  deriving DecidableEq

namespace Choices

/-- Before the first argument. -/
def blank : Choices :=
  ⟨none, none, none, none, false, false, none⟩

/-- The limit given for a resource. -/
def limit (d : Choices) : Resource → Option Nat
  | .stack => d.stackSize
  | .registers => d.registerCount
  | .memory => d.memorySize

/-- The choices with a limit on a resource. -/
def setLimit (d : Choices) (r : Resource) (n : Nat) : Choices :=
  match r with
  | .stack => { d with stackSize := some n }
  | .registers => { d with registerCount := some n }
  | .memory => { d with memorySize := some n }

/-- Limits are numbers of 64 bits. -/
def numberBound : Nat := 18446744073709551616

/-- Gives a value to a setting. That it has one already is found without
reading the value. -/
def give (d : Choices) (s : Setting) (value : String) : Except ValueError Choices :=
  match s with
  | .limit r =>
    if (d.limit r).isSome then .error .duplicate
    else
      match Text.readUnsigned numberBound value with
      | .ok n => .ok (d.setLimit r n)
      | .error e => .error (.number e)
  | .verbosity =>
    if d.verbosity.isSome then .error .duplicate
    else
      match Verbosity.ofName? value with
      | some v => .ok { d with verbosity := some v }
      | none => .error .unknownVerbosity

/-- Names the program. -/
def name (d : Choices) (path : String) : Except ArgumentError Choices :=
  match d.program with
  | none => .ok { d with program := some path }
  | some _ => .error (.unrecognized path)

/-- Whether an argument is to be read as an option. -/
def isOption (argument : String) : Bool :=
  argument.toList.head? == some '-'

/-- Reads the arguments behind `--`. -/
def readNames (d : Choices) : List String → Except ArgumentError Choices
  | [] => .ok d
  | argument :: rest =>
    match d.name argument with
    | .ok d => d.readNames rest
    | .error e => .error e

/-- Reads the arguments before `--`, and then those behind it. -/
def readAll (d : Choices) : List String → Except ArgumentError Choices
  | [] => .ok d
  | argument :: rest =>
    if argument = "--help" ∨ argument = "help" then
      { d with help := true }.readAll rest
    else if isOption argument = false then
      match d.name argument with
      | .ok d => d.readAll rest
      | .error e => .error e
    else if argument = "--" then
      d.readNames rest
    else if d.help then
      .error .optionAfterHelp
    else if argument = "-d" ∨ argument = "--disassemble" then
      { d with listing := true }.readAll rest
    else
      match Setting.ofOption? argument with
      | none => .error (.unrecognized argument)
      | some s =>
        match rest with
        | [] => .error (.missingValue argument)
        | value :: rest =>
          match d.give s value with
          | .ok d => d.readAll rest
          | .error reason => .error (.badValue argument value reason)

/-- The limits, with the capacities where none is given. -/
def limits (d : Choices) : Limits where
  stackSize := d.stackSize.getD Limits.standard.stackSize
  registerCount := d.registerCount.getD Limits.standard.registerCount
  memorySize := d.memorySize.getD Limits.standard.memorySize

/-- The request that the choices make once all arguments are read. -/
def request (d : Choices) : Except ArgumentError Request :=
  if d.help then .ok .help
  else
    match d.program with
    | none => .error .missingProgram
    | some program =>
      .ok (.execute {
        program
        limits := d.limits
        listing := d.listing
        verbosity := d.verbosity.getD (.upTo .warn) })

end Choices

namespace Request

/-- The request that arguments make. -/
def parse (arguments : List String) : Except ArgumentError Request :=
  match Choices.blank.readAll arguments with
  | .ok d => d.request
  | .error e => .error e

/-- The answer to a question for help. -/
def helpText : String :=
  String.join ([
    "Usage: bci [--stack-size <stack-size>] [--num-registers <num-registers>] " ++
      "[--max-program-bytes <max-program-bytes>] [-d] [--log-level <log-level>] " ++
      "[--] <program>",
    "",
    "Run a bytecode program on the stack/register virtual machine.",
    "",
    "Positional Arguments:",
    "  program           the binary program to run",
    "",
    "Options:",
    "  --stack-size      operand stack capacity",
    "  --num-registers   register bank size",
    "  --max-program-bytes",
    "                    instruction buffer capacity in bytes",
    "  -d, --disassemble print a listing of the program instead of running it",
    "  --log-level       one of `off`, `error`, `warn`, `info`, `debug`, `trace`",
    "  --help, help      display usage information",
    ""].map (· ++ "\n"))

end Request

end Bytecode.Command
