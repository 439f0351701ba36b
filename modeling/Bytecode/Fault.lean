/-
Faults: why a machine can not go on.

Every fault carries the offset of the instruction that raised it and what
that instruction was missing.

* `Fault.message`: the text of a fault;
* `Fault.category`: what kind of fault it is.
-/
import Bytecode.Code

namespace Bytecode

/-- Why the instruction at an offset can not be executed. -/
inductive Fault where
  /-- There is no instruction. -/
  | undecodable (error : DecodeError)
  /-- The stack has no room for this word. -/
  | stackOverflow (offset : Nat) (value : Word)
  /-- The operation takes more words than the stack holds. -/
  | stackUnderflow (opcode : Opcode) (offset needed found : Nat)
  /-- There is no register with this index. -/
  | invalidRegister (offset : Nat) (register : UInt8)
  /-- The target of a jump lies outside the memory. -/
  | invalidTarget (offset : Nat) (target : UInt16)
  /-- The divisor is zero. -/
  | divisionByZero (offset : Nat)
  /-- The sink has refused a word. -/
  | outputRefused (offset : Nat)
  deriving DecidableEq

namespace Fault

/-- The text of a fault. -/
def message : Fault → String
  | undecodable error => error.message
  | stackOverflow offset value =>
      "stack overflow pushing " ++ value.text ++ " at offset " ++ Text.decimal offset
  | stackUnderflow opcode offset needed found =>
      opcode.mnemonic ++ " at offset " ++ Text.decimal offset ++ " needs " ++
        Text.decimal needed ++ " operand(s) on the stack, found " ++ Text.decimal found
  | invalidRegister offset register =>
      "invalid register index " ++ Text.decimal register.toNat ++ " at offset " ++
        Text.decimal offset
  | invalidTarget offset target =>
      "invalid instruction index " ++ Text.decimal target.toNat ++ " at offset " ++
        Text.decimal offset
  | divisionByZero offset => "division by zero at offset " ++ Text.decimal offset
  | outputRefused offset =>
      "PRINT at offset " ++ Text.decimal offset ++ " could not write its output"

/-- What kind of fault it is. -/
def category : Fault → Category
  | undecodable error => error.category
  | stackOverflow .. => .resourceExhausted
  | stackUnderflow .. => .resourceUnderflow
  | invalidRegister .. => .invalidRegister
  | invalidTarget .. => .invalidAddress
  | divisionByZero .. => .arithmeticFault
  | outputRefused .. => .outputFailure

end Fault

end Bytecode
