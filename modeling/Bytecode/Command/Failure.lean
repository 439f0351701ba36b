/-
Failures of the command: a file that can not be read, a program that can
not be loaded, decoded or run to its end, output that can not be written.

* `SystemError`: what the system answers when a file or a device can not
  be used, whatever it is. It gives most errors a number
  (`SystemError.ofCode`);
* `Failure`: why the command has failed;
* `Failure.message`: the diagnostic of a failure;
* `Failure.term`: the failure as a labelled value, for the log.
-/
import Bytecode.Fault
import Bytecode.Limits
import Bytecode.Text.Labelled
import Bytecode.Text.Quoted

namespace Bytecode.Command

/-- Why a file or a device can not be used: in words, and as a labelled
value. -/
structure SystemError where
  message : String
  term : String
  deriving DecidableEq

namespace SystemError

/-- The kind of the error with a number, as far as files and devices can meet
it. -/
def kind (code : Nat) : String :=
  match code with
  | 1 | 13 => "PermissionDenied"
  | 2 => "NotFound"
  | 11 => "WouldBlock"
  | 12 => "OutOfMemory"
  | 16 => "ResourceBusy"
  | 20 => "NotADirectory"
  | 21 => "IsADirectory"
  | 22 => "InvalidInput"
  | 28 => "StorageFull"
  | 36 => "InvalidFilename"
  | 38 | 95 => "Unsupported"
  | 40 => "FilesystemLoop"
  | 110 => "TimedOut"
  | 116 => "StaleNetworkFileHandle"
  | _ => "Uncategorized"

/-- The error that the system gives a number and describes in words. -/
def ofCode (code : Nat) (description : String) : SystemError where
  message := description ++ " (os error " ++ Text.decimal code ++ ")"
  term :=
    Text.labelled "Os"
      [("code", Text.decimal code), ("kind", kind code), ("message", Text.quoted description)]

/-- The device is full. -/
def storageFull : SystemError :=
  ofCode 28 "No space left on device"

end SystemError

/-- Why the command has failed. -/
inductive Failure where
  /-- The file at the path can not be read. -/
  | unreadable (path : String) (reason : SystemError)
  /-- The limits or the size of the program are out of range. -/
  | unloadable (error : LoadError)
  /-- The listing has come to a position without an instruction. -/
  | undecodable (error : DecodeError)
  /-- The machine has faulted. -/
  | faulted (fault : Fault)
  /-- The output can not be written. -/
  | unwritable (reason : SystemError)
  deriving DecidableEq

/-- An offset as a field. -/
def offsetField (offset : Nat) : String × String :=
  ("offset", Text.decimal offset)

/-- The name of an opcode with one capital letter. -/
def opcodeTerm (op : Opcode) : String :=
  op.mnemonic.toLower.capitalize

/-- A decoding error as a labelled value. -/
def decodeErrorTerm : DecodeError → String
  | .pastEnd position =>
      Text.applied "InstructionPointerOutOfBounds" (Text.decimal position)
  | .unknownOpcode offset byte =>
      Text.labelled "InvalidOp" [offsetField offset, ("byte", Text.decimal byte.toNat)]

/-- A loading error as a labelled value. -/
def loadErrorTerm : LoadError → String
  | .limitOutOfRange resource value capacity =>
      Text.labelled "InvalidConfig"
        [("option", Text.quoted resource.option), ("value", Text.decimal value),
          ("capacity", Text.decimal capacity)]
  | .programTooLarge size capacity =>
      Text.labelled "ProgramTooLarge"
        [("size", Text.decimal size), ("capacity", Text.decimal capacity)]

/-- A fault as a labelled value. -/
def faultTerm : Fault → String
  | .undecodable error => decodeErrorTerm error
  | .stackOverflow offset value =>
      Text.labelled "StackOverflow" [offsetField offset, ("value", value.text)]
  | .stackUnderflow op offset needed found =>
      Text.labelled "StackUnderflow"
        [("op", opcodeTerm op), offsetField offset, ("needed", Text.decimal needed),
          ("found", Text.decimal found)]
  | .invalidRegister offset register =>
      Text.labelled "InvalidRegister"
        [offsetField offset, ("index", Text.decimal register.toNat)]
  | .invalidTarget offset target =>
      Text.labelled "InvalidAddress"
        [offsetField offset, ("target", Text.decimal target.toNat)]
  | .divisionByZero offset => Text.labelled "DivisionByZero" [offsetField offset]
  | .outputRefused offset => Text.labelled "OutputFailed" [offsetField offset]

namespace Failure

/-- The diagnostic of a failure. -/
def message : Failure → String
  | unreadable path reason => "error reading " ++ path ++ ": " ++ reason.message
  | unloadable error => error.message
  | undecodable error => error.message
  | faulted fault => fault.message
  | unwritable reason => "error writing output: " ++ reason.message

/-- The failure as a labelled value. -/
def term : Failure → String
  | unreadable path reason =>
      Text.labelled "Read" [("path", Text.quoted path), ("reason", reason.term)]
  | unloadable error => Text.applied "Machine" (loadErrorTerm error)
  | undecodable error => Text.applied "Machine" (decodeErrorTerm error)
  | faulted fault => Text.applied "Machine" (faultTerm fault)
  | unwritable reason => Text.applied "Output" reason.term

end Failure

end Bytecode.Command
