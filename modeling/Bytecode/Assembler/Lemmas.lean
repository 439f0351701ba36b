/-
What the calls of an assembler come to.

* `Opcode.IsJump`: the opcodes that `Instruction.jumpTo?` takes;
* `write_eq`: an instruction is written over the bytes at its place, or not at
  all;
* `Assembler.append`: what `emit` and `raw` have in common (`emit_eq_append`,
  `raw_eq_append`). Bytes that have been written behind the program stay there
  if its end can not be moved (`append_of_not_fits`);
* `append_of_lt` (**no half-done write**): in a buffer whose size is an offset
  the end can always be moved;
* `jumpForward_of_isJump`, `patch_of_isJump`: jumps whose targets are given
  later.
-/
import Mathlib
import Bytecode.Assembler
import Bytecode.Bytes.Lemmas

namespace Bytecode

/-! ### Jumps -/

/-- The opcodes of jumps. -/
def Opcode.IsJump (op : Opcode) : Prop :=
  op ∈ [Opcode.jmp, .jz, .jnz]

instance (op : Opcode) : Decidable op.IsJump :=
  inferInstanceAs (Decidable (op ∈ _))

namespace Instruction

variable {op : Opcode}

/-- A jump is its opcode with its target. -/
lemma jumpTo?_of_isJump (h : op.IsJump) (target : UInt16) :
    jumpTo? op target = some (.ofOperand op target.toNat) := by
  have hofNat : UInt16.ofNat target.toNat = target := UInt16.ofNat_toNat
  rw [Opcode.IsJump, List.mem_cons, List.mem_cons, List.mem_singleton] at h
  rcases h with rfl | rfl | rfl
  · rw [ofOperand, hofNat, jumpTo?]
  · rw [ofOperand, hofNat, jumpTo?]
  · rw [ofOperand, hofNat, jumpTo?]

/-- There is no jump with another opcode. -/
lemma jumpTo?_of_not_isJump (h : ¬ op.IsJump) (target : UInt16) : jumpTo? op target = none := by
  cases op with
  | jmp | jz | jnz => exact absurd (by decide) h
  | _ => rfl

/-- A jump takes three bytes. -/
lemma size_ofOperand_of_isJump (h : op.IsJump) (n : ℕ) : (ofOperand op n).size = 3 := by
  rw [Opcode.IsJump, List.mem_cons, List.mem_cons, List.mem_singleton] at h
  rcases h with rfl | rfl | rfl
  · rfl
  · rfl
  · rfl

end Instruction

/-- The bytes of the jump that a patch belongs to, with a target. -/
def Patch.bytes (p : Patch) (target : UInt16) : List UInt8 :=
  (Instruction.ofOperand p.opcode target.toNat).encode

/-- They are three. -/
lemma Patch.length_bytes {p : Patch} (h : p.opcode.IsJump) (target : UInt16) :
    (p.bytes target).length = 3 := by
  rw [bytes, Instruction.length_encode, Instruction.size_ofOperand_of_isJump h]

namespace Bytes

/-- The two parts of a byte string make up the whole. -/
lemma extract_append_extract (b : Bytes) {p : ℕ} (h : p ≤ b.size) :
    b.extract 0 p ++ b.extract p b.size = b := by
  rw [Array.extract_append_extract, Nat.zero_min, max_eq_right h, Array.extract_size]

/-- A write over the start of what lies behind an offset is a write at that
offset. -/
lemma extract_append_overwrite (b : Bytes) {p : ℕ} {new : List UInt8}
    (h : p + new.length ≤ b.size) :
    b.extract 0 p ++ overwrite (b.extract p b.size) 0 new = b.overwrite p new := by
  have hrest : (b.extract p b.size).toList = b.toList.drop p := by
    rw [Array.toList_extract, List.extract_eq_take_drop, ← Array.length_toList,
      ← List.length_drop, List.take_length]
  have hroom : 0 + new.length ≤ (b.extract p b.size).size := by
    rw [Array.size_extract, min_self]
    omega
  apply Array.toList_inj.mp
  rw [Array.toList_append, toList_overwrite _ hroom, toList_overwrite _ h, hrest, List.drop_drop,
    Nat.zero_add, List.take_zero, List.nil_append, Array.toList_extract,
    List.extract_eq_take_drop, List.drop_zero, Nat.sub_zero, List.append_assoc]

end Bytes

namespace Assembler

variable {a : Assembler}

/-! ### Writing -/

/-- Other bytes at an offset of the buffer. -/
def overwritten (a : Assembler) (offset : ℕ) (bytes : List UInt8) : Assembler :=
  { a with buffer := a.buffer.overwrite offset bytes }

/-- An instruction is written over the bytes at its place, or not at all. -/
lemma write_eq (a : Assembler) (offset : ℕ) (i : Instruction) :
    a.write offset i =
      if offset + i.size ≤ a.buffer.size then (some i.size, a.overwritten offset i.encode)
      else (none, a) := by
  rw [write, Bytes.changeFrom?]
  by_cases hoffset : offset ≤ a.buffer.size
  · have hsize : (a.buffer.extract offset a.buffer.size).size = a.buffer.size - offset := by
      rw [Array.size_extract, min_self]
    rw [if_pos hoffset, Instruction.encodeInto, hsize]
    split_ifs with hpart hwhole hwhole
    · dsimp only
      rw [Bytes.extract_append_overwrite _ (by rw [Instruction.length_encode]; exact hwhole),
        overwritten]
    · omega
    · omega
    · dsimp only
      rw [Bytes.extract_append_extract _ hoffset]
  · rw [if_neg hoffset, if_neg (by omega)]

/-- Bytes behind the program that the program does not reach. -/
def spilled (a : Assembler) (bytes : List UInt8) : Assembler :=
  a.overwritten a.free bytes

@[simp] lemma free_spilled (a : Assembler) (bytes : List UInt8) :
    (a.spilled bytes).free = a.free :=
  rfl

/-- Bytes behind the program that belong to it. -/
def appended (a : Assembler) (bytes : List UInt8) : Assembler :=
  ⟨a.buffer.overwrite a.free bytes, a.free + bytes.length⟩

/-- Puts bytes behind the program, whatever they stand for, and answers their
offset. -/
def append (a : Assembler) (bytes : List UInt8) : Except AssemblyError ℕ × Assembler :=
  if a.free + bytes.length ≤ a.buffer.size then (a.spilled bytes).advance bytes.length
  else (.error .bufferTooSmall, a)

/-- An instruction is put by its bytes. -/
lemma emit_eq_append (a : Assembler) (i : Instruction) : a.emit i = a.append i.encode := by
  rw [emit, write_eq, append, Instruction.length_encode]
  split_ifs
  · rfl
  · rfl

/-- A byte is put by itself. -/
lemma raw_eq_append (a : Assembler) (byte : UInt8) : a.raw byte = a.append [byte] :=
  rfl

/-! ### What fits -/

/-- There is room for so many bytes behind the program, and they end at an
offset. -/
def Fits (a : Assembler) (n : ℕ) : Prop :=
  a.free + n ≤ a.buffer.size ∧ a.free + n < offsetBound

/-- What stays behind the program of bytes that do not fit. -/
def spill (a : Assembler) (bytes : List UInt8) : List UInt8 :=
  if a.free + bytes.length ≤ a.buffer.size then bytes else []

/-- What stays behind the program stays in the buffer. -/
lemma free_add_length_spill_le (h : a.free ≤ a.buffer.size) (bytes : List UInt8) :
    a.free + (a.spill bytes).length ≤ a.buffer.size := by
  rw [spill]
  split_ifs with hroom
  · exact hroom
  · exact h

/-- Bytes that fit are put behind the program. -/
lemma append_of_fits {bytes : List UInt8} (h : a.Fits bytes.length) :
    a.append bytes = (.ok a.free, a.appended bytes) := by
  rw [append, if_pos h.1, advance, addOffset?, free_spilled, if_pos h.2]
  rfl

/-- Bytes that do not fit do not become a part of the program. -/
lemma append_of_not_fits {bytes : List UInt8} (h : ¬ a.Fits bytes.length) :
    a.append bytes = (.error .bufferTooSmall, a.spilled (a.spill bytes)) := by
  rw [append, spill]
  split_ifs with hroom
  · have hbound : ¬ a.free + bytes.length < offsetBound := fun hlt => h ⟨hroom, hlt⟩
    rw [advance, addOffset?, free_spilled, if_neg hbound]
  · rfl

/-- **No half-done write**: in a buffer whose size is an offset, the end of the
program can be moved behind all that has been written there. -/
theorem append_of_lt (h : a.buffer.size < offsetBound) (bytes : List UInt8) :
    a.append bytes =
      if a.free + bytes.length ≤ a.buffer.size then (.ok a.free, a.appended bytes)
      else (.error .bufferTooSmall, a) := by
  split_ifs with hroom
  · exact append_of_fits ⟨hroom, by omega⟩
  · rw [append, if_neg hroom]

/-! ### Jumps whose targets are given later -/

/-- A forward jump is put without a target, and answers its patch. -/
lemma jumpForward_of_isJump {op : Opcode} (h : op.IsJump) (a : Assembler) :
    a.jumpForward op = ((a.append (Instruction.ofOperand op 0).encode).1.map (Patch.mk op),
      (a.append (Instruction.ofOperand op 0).encode).2) := by
  rw [jumpForward, Instruction.jumpTo?_of_isJump h, ← emit_eq_append, UInt16.toNat_zero]
  dsimp only
  rcases a.emit (Instruction.ofOperand op 0) with ⟨_ | _, _⟩
  · rfl
  · rfl

/-- What is no jump is not put. -/
lemma jumpForward_of_not_isJump {op : Opcode} (h : ¬ op.IsJump) (a : Assembler) :
    a.jumpForward op = (.error (.notAJump op), a) := by
  rw [jumpForward, Instruction.jumpTo?_of_not_isJump h]

/-- The target of a jump is written at its offset, with the jump, or not at
all. -/
lemma patch_of_isJump {p : Patch} (h : p.opcode.IsJump) (a : Assembler) (target : UInt16) :
    a.patch p target =
      if p.offset + (p.bytes target).length ≤ a.buffer.size then
        (.ok (), a.overwritten p.offset (p.bytes target))
      else (.error .bufferTooSmall, a) := by
  rw [patch, Instruction.jumpTo?_of_isJump h]
  dsimp only
  rw [write_eq, Patch.bytes, Instruction.length_encode]
  split_ifs
  · rfl
  · rfl

end Assembler

end Bytecode
