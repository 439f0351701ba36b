/-
A decoder: code and a position in it that moves past what is read.

* `Decoder.readOpcode` and `Decoder.readOperand`: one read, which moves
  the position past the bytes read, or fails and leaves it where it is;
* `Decoder.decode`: a whole instruction, the operand with the read that
  belongs to the opcode. When it fails after the opcode byte, the
  position stays past that byte (`decode_eq`);
* `decode_fst`: what a decoder decodes is the instruction of the code at
  its position;
* `position_decode`: a decoded instruction moves the position by its
  size.
-/
import Bytecode.Code

namespace Bytecode

/-- Code with a position, which may lie past its end. -/
structure Decoder where
  code : Code
  position : Nat

namespace Decoder

/-- The decoder a few bytes further on. -/
def advance (d : Decoder) (w : Nat) : Decoder :=
  { d with position := d.position + w }

/-- Reads a byte, whether or not it is an opcode. -/
def readOpcode (d : Decoder) : Except DecodeError UInt8 × Decoder :=
  match d.code.byteAt d.position with
  | .ok byte => (.ok byte, d.advance 1)
  | .error e => (.error e, d)

/-- Reads a number of `w` bytes, least significant first. -/
def readNumber (d : Decoder) (w : Nat) : Except DecodeError Nat × Decoder :=
  match d.code.operandAt w d.position with
  | .ok n => (.ok n, d.advance w)
  | .error e => (.error e, d)

/-- A read whose value is converted. -/
def convert {α β : Type} (f : α → β) :
    Except DecodeError α × Decoder → Except DecodeError β × Decoder
  | (.ok a, d) => (.ok (f a), d)
  | (.error e, d) => (.error e, d)

/-- Reads an operand as a word: four bytes in two's complement, fewer
without a sign. -/
def readOperand (d : Decoder) (w : Width) : Except DecodeError Word × Decoder :=
  convert Int32.ofNat (d.readNumber w.bytes)

/-- Reads the index of a register. -/
def readRegister (d : Decoder) : Except DecodeError UInt8 × Decoder :=
  convert UInt8.ofNat (d.readNumber 1)

/-- Reads the target of a jump. -/
def readTarget (d : Decoder) : Except DecodeError UInt16 × Decoder :=
  convert UInt16.ofNat (d.readNumber 2)

/-- Reads what follows an opcode byte. -/
def readRest (d : Decoder) : Opcode → Except DecodeError Instruction × Decoder
  | .nop => (.ok .nop, d)
  | .push => convert .push (d.readOperand .four)
  | .pop => (.ok .pop, d)
  | .load => convert .load d.readRegister
  | .store => convert .store d.readRegister
  | .jmp => convert .jmp d.readTarget
  | .jz => convert .jz d.readTarget
  | .jnz => convert .jnz d.readTarget
  | .add => (.ok .add, d)
  | .sub => (.ok .sub, d)
  | .mul => (.ok .mul, d)
  | .div => (.ok .div, d)
  | .print => (.ok .print, d)
  | .stop => (.ok .stop, d)

/-- Reads an instruction. -/
def decode (d : Decoder) : Except DecodeError Instruction × Decoder :=
  match d.readOpcode with
  | (.error e, d) => (.error e, d)
  | (.ok byte, next) =>
    match Opcode.ofByte? byte with
    | none => (.error (.unknownOpcode d.position byte), next)
    | some op => next.readRest op

/-- What follows an opcode byte is a number of as many bytes as the opcode
says. Without an operand there is nothing left to read. -/
theorem readRest_eq {d : Decoder} (h : d.position ≤ d.code.size) (op : Opcode) :
    d.readRest op =
      match d.code.operandAt op.operandBytes d.position with
      | .ok n => (.ok (.ofOperand op n), d.advance op.operandBytes)
      | .error e => (.error e, d) := by
  have hnone : d.code.operandAt 0 d.position = .ok 0 := if_pos h
  cases op with
  | push =>
      simp only [readRest, readOperand, readNumber, Opcode.operandBytes, Opcode.width?,
        Option.map_some, Option.getD_some, Width.bytes]
      cases d.code.operandAt 4 d.position <;> rfl
  | load | store =>
      simp only [readRest, readRegister, readNumber, Opcode.operandBytes, Opcode.width?,
        Option.map_some, Option.getD_some, Width.bytes]
      cases d.code.operandAt 1 d.position <;> rfl
  | jmp | jz | jnz =>
      simp only [readRest, readTarget, readNumber, Opcode.operandBytes, Opcode.width?,
        Option.map_some, Option.getD_some, Width.bytes]
      cases d.code.operandAt 2 d.position <;> rfl
  | nop | pop | add | sub | mul | div | print | stop =>
      simp [readRest, Opcode.operandBytes, Opcode.width?, hnone, Instruction.ofOperand, advance]

/-- **What a decoder comes to**: without an opcode byte it stays, at a byte
that is no opcode or without the whole operand it has moved by one, and an
instruction moves it by its size. -/
theorem decode_eq (d : Decoder) :
    d.decode =
      match d.code.byteAt d.position with
      | .error e => (.error e, d)
      | .ok byte =>
        match Opcode.ofByte? byte with
        | none => (.error (.unknownOpcode d.position byte), d.advance 1)
        | some op =>
          match d.code.operandAt op.operandBytes (d.position + 1) with
          | .error e => (.error e, d.advance 1)
          | .ok n => (.ok (.ofOperand op n), d.advance op.size) := by
  unfold decode readOpcode
  cases hb : d.code.byteAt d.position with
  | error e => rfl
  | ok byte =>
      dsimp only
      cases Opcode.ofByte? byte with
      | none => rfl
      | some op =>
          have hlt : d.position < d.code.size := by
            unfold Code.byteAt at hb
            split at hb
            · assumption
            · cases hb
          have hrest := readRest_eq (d := d.advance 1) hlt op
          simp only [advance] at hrest ⊢
          rw [hrest]
          cases d.code.operandAt op.operandBytes (d.position + 1) with
          | error e => rfl
          | ok n => simp [Opcode.size, Nat.add_assoc]

/-- A decoder decodes the instruction at its position. -/
theorem decode_fst (d : Decoder) : d.decode.1 = d.code.decodeAt d.position := by
  rw [decode_eq, Code.decodeAt]
  cases d.code.byteAt d.position with
  | error e => rfl
  | ok byte =>
      dsimp only
      cases Opcode.ofByte? byte with
      | none => rfl
      | some op =>
          dsimp only
          cases d.code.operandAt op.operandBytes (d.position + 1) <;> rfl

/-- A decoder keeps its code. -/
@[simp] theorem code_decode (d : Decoder) : d.decode.2.code = d.code := by
  rw [decode_eq]
  cases d.code.byteAt d.position with
  | error e => rfl
  | ok byte =>
      dsimp only
      cases Opcode.ofByte? byte with
      | none => rfl
      | some op =>
          dsimp only
          cases d.code.operandAt op.operandBytes (d.position + 1) <;> rfl

/-- Decoding an instruction moves the position by its size. -/
theorem position_decode {d : Decoder} {i : Instruction} (h : d.decode.1 = .ok i) :
    d.decode.2.position = d.position + i.size := by
  rw [decode_eq] at h ⊢
  cases hb : d.code.byteAt d.position with
  | error e => simp [hb] at h
  | ok byte =>
      simp only [hb] at h ⊢
      cases ho : Opcode.ofByte? byte with
      | none => simp [ho] at h
      | some op =>
          simp only [ho] at h ⊢
          cases hn : d.code.operandAt op.operandBytes (d.position + 1) with
          | error e => simp [hn] at h
          | ok n =>
              simp only [hn, Except.ok.injEq] at h ⊢
              subst h
              simp [Instruction.size, advance]

end Decoder

end Bytecode
