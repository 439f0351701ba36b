/-
Operands and the bytes that hold them.

* `operand_lt`: the operand of an instruction fits the width that its
  opcode gives it;
* `operand_ofOperand`: an operand that fits is the operand of the
  instruction made with it;
* `encode_injective` (**no two instructions share their bytes**).
-/
import Mathlib
import Bytecode.Bytes.Lemmas
import Bytecode.Instruction

namespace Bytecode.Instruction

/-- The operand fits the width of the opcode. -/
lemma operand_lt (i : Instruction) : i.operand < 256 ^ i.opcode.operandBytes := by
  cases i with
  | push value => exact value.toUInt32.toNat_lt
  | load register => exact register.toNat_lt
  | store register => exact register.toNat_lt
  | jmp target => exact target.toNat_lt
  | jz target => exact target.toNat_lt
  | jnz target => exact target.toNat_lt
  | _ => exact Nat.one_pos

/-- An operand that fits is the operand of the instruction made with it. -/
lemma operand_ofOperand {op : Opcode} {n : ℕ} (h : n < 256 ^ op.operandBytes) :
    (ofOperand op n).operand = n := by
  cases op <;> simp_all [operand, ofOperand, Opcode.operandBytes, Opcode.width?, Width.bytes]

/-- The bytes behind the opcode stand for the operand. -/
lemma ofLittleEndian_operand (i : Instruction) :
    ofLittleEndian (littleEndian i.opcode.operandBytes i.operand) = i.operand := by
  rw [ofLittleEndian_littleEndian, Nat.mod_eq_of_lt i.operand_lt]

/-- **No two instructions share their bytes.** -/
theorem encode_injective : Function.Injective encode := by
  intro i j h
  rw [encode, encode, encodeOperand_eq, encodeOperand_eq] at h
  obtain ⟨hbyte, hrest⟩ := List.cons.inj h
  have hop : i.opcode = j.opcode := by
    have := congrArg Opcode.ofByte? hbyte
    simpa using this
  have hnum := congrArg ofLittleEndian hrest
  rw [ofLittleEndian_operand, ofLittleEndian_operand] at hnum
  rw [← ofOperand_operand i, ← ofOperand_operand j, hop, hnum]

end Bytecode.Instruction
