/-
The fourteen operations: the byte that encodes each, its mnemonic, and
the width of the operand that follows the byte.

* `Opcode.byte` and `Opcode.ofByte?`: an opcode and its byte, inverse to
  each other where `ofByte?` answers (`ofByte?_eq_some_iff`);
* `Opcode.width?`: the width of the operand, `none` without one;
* `Opcode.size`: how many bytes an instruction takes, between one and
  five.
-/
import Bytecode.Bytes

namespace Bytecode

/-- The widths that an operand can have. -/
inductive Width where
  | one
  | two
  | four
  deriving DecidableEq

/-- How many bytes an operand takes. -/
def Width.bytes : Width → Nat
  | .one => 1
  | .two => 2
  | .four => 4

/-- What an instruction does, without its operand. -/
inductive Opcode where
  | nop
  | push
  | pop
  | load
  | store
  | jmp
  | jz
  | jnz
  | add
  | sub
  | mul
  | div
  | print
  | stop
  deriving DecidableEq

namespace Opcode

/-- The byte that encodes an opcode. -/
def byte : Opcode → UInt8
  | nop => 0
  | push => 1
  | pop => 2
  | load => 3
  | store => 4
  | jmp => 5
  | jz => 6
  | jnz => 7
  | add => 8
  | sub => 9
  | mul => 10
  | div => 11
  | print => 12
  | stop => 13

/-- The opcode that a byte encodes. -/
def ofByte? (b : UInt8) : Option Opcode :=
  match b.toNat with
  | 0 => some nop
  | 1 => some push
  | 2 => some pop
  | 3 => some load
  | 4 => some store
  | 5 => some jmp
  | 6 => some jz
  | 7 => some jnz
  | 8 => some add
  | 9 => some sub
  | 10 => some mul
  | 11 => some div
  | 12 => some print
  | 13 => some stop
  | _ => none

/-- The name of an opcode in listings and messages. -/
def mnemonic : Opcode → String
  | nop => "NOP"
  | push => "PUSH"
  | pop => "POP"
  | load => "LOAD"
  | store => "STORE"
  | jmp => "JMP"
  | jz => "JZ"
  | jnz => "JNZ"
  | add => "ADD"
  | sub => "SUB"
  | mul => "MUL"
  | div => "DIV"
  | print => "PRINT"
  | stop => "STOP"

/-- The width of the operand: a whole word for `push`, one byte for a
register and two for a jump target. -/
def width? : Opcode → Option Width
  | push => some .four
  | load | store => some .one
  | jmp | jz | jnz => some .two
  | nop | pop | add | sub | mul | div | print | stop => none

/-- How many operand bytes follow the opcode byte. -/
def operandBytes (op : Opcode) : Nat :=
  (op.width?.map Width.bytes).getD 0

/-- How many bytes an instruction with this opcode takes. -/
def size (op : Opcode) : Nat :=
  1 + op.operandBytes

/-- The byte of an opcode stands for that opcode. -/
@[simp] theorem ofByte?_byte (op : Opcode) : ofByte? op.byte = some op := by
  cases op <;> rfl

/-- **Bytes and opcodes match one to one**: a byte stands for an opcode
exactly if it is the byte of that opcode. -/
theorem ofByte?_eq_some_iff {b : UInt8} {op : Opcode} :
    ofByte? b = some op ↔ b = op.byte := by
  constructor
  · intro h
    unfold ofByte? at h
    apply UInt8.toNat_inj.mp
    split at h <;> cases h <;> simp_all [byte]
  · rintro rfl
    exact ofByte?_byte op

/-- A byte stands for no opcode exactly if it is past the last one. -/
theorem ofByte?_eq_none_iff {b : UInt8} : ofByte? b = none ↔ 14 ≤ b.toNat := by
  unfold ofByte?
  split <;> simp_all
  omega

/-- An instruction takes at least the opcode byte. -/
theorem size_pos (op : Opcode) : 0 < op.size := by
  cases op <;> decide

/-- An instruction takes at most five bytes. -/
theorem size_le (op : Opcode) : op.size ≤ 5 := by
  cases op <;> decide

end Opcode

end Bytecode
