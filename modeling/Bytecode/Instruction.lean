/-
Instructions: an opcode with its operand, the bytes that encode them and
the text that lists them.

* `Instruction.ofOperand` and `Instruction.operand`: the operand of every
  instruction as one number, the same that its bytes stand for;
* `Instruction.encode`: the opcode byte and the bytes of the operand,
  least significant first. The operand is as wide as its opcode says
  (`encodeOperand_eq`);
* `Instruction.encodeInto`: the same in place, if the buffer has room;
* `Instruction.text`: the mnemonic, then the operand as a signed number,
  a register such as `r3`, or a target of four digits such as `0x0010`.
-/
import Bytecode.Opcode
import Bytecode.Text.Numeral

namespace Bytecode

/-- What the stack and the registers hold: 32 bits in two's complement,
with arithmetic modulo `2 ^ 32`. -/
abbrev Word := Int32

/-- The decimal text of a word. -/
def Word.text (v : Word) : String :=
  Text.integer v.toInt

/-- One step of a program. -/
inductive Instruction where
  /-- Does nothing. -/
  | nop
  /-- Puts a word on the stack. -/
  | push (value : Word)
  /-- Drops the top of the stack. -/
  | pop
  /-- Puts the value of a register on the stack. -/
  | load (register : UInt8)
  /-- Moves the top of the stack to a register. -/
  | store (register : UInt8)
  /-- Goes on at the target. -/
  | jmp (target : UInt16)
  /-- Goes on at the target if the top is zero; the top stays. -/
  | jz (target : UInt16)
  /-- Goes on at the target unless the top is zero; the top stays. -/
  | jnz (target : UInt16)
  /-- Replaces the two topmost words by their sum. -/
  | add
  /-- Replaces the two topmost words by the lower less the upper. -/
  | sub
  /-- Replaces the two topmost words by their product. -/
  | mul
  /-- Replaces the two topmost words by the quotient of the lower by the
  upper, rounded toward zero. -/
  | div
  /-- Prints the top of the stack and drops it. -/
  | print
  /-- Ends the program. -/
  | stop
  deriving DecidableEq

namespace Instruction

/-- The opcode of an instruction. -/
def opcode : Instruction → Opcode
  | nop => .nop
  | push _ => .push
  | pop => .pop
  | load _ => .load
  | store _ => .store
  | jmp _ => .jmp
  | jz _ => .jz
  | jnz _ => .jnz
  | add => .add
  | sub => .sub
  | mul => .mul
  | div => .div
  | print => .print
  | stop => .stop

/-- The operand as an unsigned number, zero without one. -/
def operand : Instruction → Nat
  | push value => value.toUInt32.toNat
  | load register | store register => register.toNat
  | jmp target | jz target | jnz target => target.toNat
  | nop | pop | add | sub | mul | div | print | stop => 0

/-- The instruction with a given opcode and operand. What the width of
the operand can not hold is dropped. -/
def ofOperand (op : Opcode) (n : Nat) : Instruction :=
  match op with
  | .nop => nop
  | .push => push (Int32.ofNat n)
  | .pop => pop
  | .load => load (UInt8.ofNat n)
  | .store => store (UInt8.ofNat n)
  | .jmp => jmp (UInt16.ofNat n)
  | .jz => jz (UInt16.ofNat n)
  | .jnz => jnz (UInt16.ofNat n)
  | .add => add
  | .sub => sub
  | .mul => mul
  | .div => div
  | .print => print
  | .stop => stop

/-- How many bytes an instruction takes. -/
def size (i : Instruction) : Nat :=
  i.opcode.size

/-- The bytes of the operand, least significant first: four for a word, one
for a register and two for a target. -/
def encodeOperand : Instruction → List UInt8
  | push value => littleEndian 4 value.toUInt32.toNat
  | load register | store register => littleEndian 1 register.toNat
  | jmp target | jz target | jnz target => littleEndian 2 target.toNat
  | nop | pop | add | sub | mul | div | print | stop => []

/-- The bytes of an instruction. -/
def encode (i : Instruction) : List UInt8 :=
  i.opcode.byte :: i.encodeOperand

/-- Writes an instruction over the start of a buffer, and answers how many
bytes it takes there. A buffer that is too short stays as it is. -/
def encodeInto (i : Instruction) (buffer : Bytes) : Option Nat × Bytes :=
  if i.size ≤ buffer.size then (some i.size, buffer.overwrite 0 i.encode) else (none, buffer)

/-- A jump target as listings show it. -/
def targetText (target : UInt16) : String :=
  "0x" ++ Text.hex 4 target.toNat

/-- The text of the operand. -/
def operandText? : Instruction → Option String
  | push value => some value.text
  | load register | store register => some ("r" ++ Text.decimal register.toNat)
  | jmp target | jz target | jnz target => some (targetText target)
  | nop | pop | add | sub | mul | div | print | stop => none

/-- The text of an instruction. -/
def text (i : Instruction) : String :=
  match i.operandText? with
  | some operand => i.opcode.mnemonic ++ " " ++ operand
  | none => i.opcode.mnemonic

/-- The bytes of the operand are as many as the width of the opcode says, and
stand for the operand. -/
theorem encodeOperand_eq (i : Instruction) :
    i.encodeOperand = littleEndian i.opcode.operandBytes i.operand := by
  cases i <;> rfl

/-- The bytes of an instruction are as many as its size says. -/
@[simp] theorem length_encode (i : Instruction) : i.encode.length = i.size := by
  simp [encode, encodeOperand_eq, size, Opcode.size, Nat.add_comm]

/-- An instruction made from an opcode has that opcode. -/
@[simp] theorem opcode_ofOperand (op : Opcode) (n : Nat) :
    (ofOperand op n).opcode = op := by
  cases op <;> rfl

/-- An instruction is its opcode and its operand. -/
@[simp] theorem ofOperand_operand (i : Instruction) : ofOperand i.opcode i.operand = i := by
  cases i with
  | push value =>
      simp only [opcode, operand, ofOperand, push.injEq]
      have h : (Int32.ofNat value.toUInt32.toNat).toUInt32 = value.toUInt32 := by simp
      rw [← Int32.toInt32_toUInt32 (Int32.ofNat _), h, Int32.toInt32_toUInt32]
  | _ => simp [opcode, operand, ofOperand]

end Instruction

end Bytecode
