/-
Code: bytes up to an end, and the instruction that starts at a position.

* `Code`: bytes of which those from `size` on do not belong to the code;
* `Code.byteAt` and `Code.operandAt`: a byte and a number of several
  bytes at a position, which fail where a byte is missing;
* `Code.decodeAt`: the instruction at a position. It reads the opcode
  byte first, so an unknown opcode is found before a missing operand;
* `DecodeError`: why there is no instruction at a position.
-/
import Bytecode.Category
import Bytecode.Instruction

namespace Bytecode

/-- Why there is no instruction at a position. -/
inductive DecodeError where
  /-- The byte at this position is needed, but lies past the end. -/
  | pastEnd (position : Nat)
  /-- The byte at this offset is no opcode. -/
  | unknownOpcode (offset : Nat) (byte : UInt8)
  deriving DecidableEq

namespace DecodeError

/-- The text of a decoding error. -/
def message : DecodeError → String
  | pastEnd position =>
      "instruction pointer " ++ Text.decimal position ++ " is outside the instruction buffer"
  | unknownOpcode offset byte =>
      "invalid instruction 0x" ++ Text.hex 2 byte.toNat ++ " at offset " ++ Text.decimal offset

/-- What kind of error it is. -/
def category : DecodeError → Category
  | pastEnd _ => .invalidAddress
  | unknownOpcode _ _ => .invalidOpcode

end DecodeError

/-- The message about a byte that is asked for as an opcode and is none. -/
def unknownOpcodeMessage (byte : UInt8) : String :=
  "unknown opcode 0x" ++ Text.hex 2 byte.toNat

/-- Bytes of which only those below `size` belong to the code. -/
structure Code where
  /-- The bytes of the code, and possibly more. -/
  bytes : Bytes
  /-- Where the code ends. -/
  size : Nat
  /-- The code lies within the bytes. -/
  size_le : size ≤ bytes.size

namespace Code

/-- All of the bytes as code. -/
def ofBytes (b : Bytes) : Code :=
  ⟨b, b.size, Nat.le_refl _⟩

/-- The first `n` bytes as code, or all of them if there are fewer. -/
def upTo (b : Bytes) (n : Nat) : Code :=
  ⟨b, min n b.size, Nat.min_le_right _ _⟩

/-- The bytes that belong to the code. -/
def toList (c : Code) : List UInt8 :=
  c.bytes.toList.take c.size

/-- The error of a read that starts at `p`: the first byte that is
missing, or the start itself if that lies further on. -/
def missing (c : Code) (p : Nat) : DecodeError :=
  .pastEnd (max p c.size)

/-- The byte at a position. -/
def byteAt (c : Code) (p : Nat) : Except DecodeError UInt8 :=
  if p < c.size then .ok (c.bytes.getD p 0) else .error (c.missing p)

/-- The `w` bytes from position `p` on, with zeros past the last one. -/
def slice (c : Code) (p : Nat) : Nat → List UInt8
  | 0 => []
  | w + 1 => c.bytes.getD p 0 :: slice c (p + 1) w

/-- The number that the `w` bytes from position `p` on stand for, least
significant first. -/
def operandAt (c : Code) (w p : Nat) : Except DecodeError Nat :=
  if p + w ≤ c.size then .ok (ofLittleEndian (c.slice p w)) else .error (c.missing p)

/-- The instruction that starts at a position. -/
def decodeAt (c : Code) (p : Nat) : Except DecodeError Instruction :=
  match c.byteAt p with
  | .error e => .error e
  | .ok byte =>
    match Opcode.ofByte? byte with
    | none => .error (.unknownOpcode p byte)
    | some op => (c.operandAt op.operandBytes (p + 1)).map (Instruction.ofOperand op)

/-- The code has as many bytes as its size says. -/
@[simp] theorem length_toList (c : Code) : c.toList.length = c.size := by
  have h := c.size_le
  simp [toList]
  omega

/-- A slice that lies within the code is a part of its bytes. -/
theorem slice_eq_take_drop (c : Code) {p w : Nat} (h : p + w ≤ c.size) :
    c.slice p w = (c.toList.drop p).take w := by
  induction w generalizing p with
  | zero => simp [slice]
  | succ w ih =>
      have hs := c.size_le
      have hp : p < c.toList.length := by
        rw [length_toList]
        omega
      rw [slice, ih (by omega), List.drop_eq_getElem_cons hp, List.take_succ_cons]
      congr 1
      rw [← Array.getElem_eq_getD (h := by omega)]
      simp [toList]

/-- An instruction that was decoded lies within the code. -/
theorem add_size_le_of_decodeAt {c : Code} {p : Nat} {i : Instruction}
    (h : c.decodeAt p = .ok i) : p + i.size ≤ c.size := by
  unfold decodeAt at h
  split at h
  · cases h
  · split at h
    · cases h
    · next op _ =>
      unfold operandAt at h
      split at h
      · cases h
        simp [Instruction.size, Opcode.size]
        omega
      · cases h

end Code

end Bytecode
