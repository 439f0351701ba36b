/-
Encoding and decoding, as functions that change a buffer and a position.

* `decode_eq_ok_iff`: a decoder answers an instruction exactly if the bytes
  of that instruction stand at its position;
* `decode_of_size_le`, `decode_of_unknown`, `decode_of_truncated`: what it
  answers where there is no instruction, and where it stands then;
* `encodeInto_of_lt`, `encodeInto_of_le`: an instruction is written whole or
  not at all, over the start of the buffer and nothing else;
* `decode_inverts_encode` (**exact inverses**): all of this at every
  position of every byte string.
-/
import Mathlib
import Bytecode.Bytes.Lemmas
import Bytecode.Code.Lemmas
import Bytecode.Decoder

namespace Bytecode

namespace Code

/-- A byte of whole code is a byte of the array. -/
lemma byteAt_ofBytes {b : Bytes} {p : ℕ} {byte : UInt8} (h : b[p]? = some byte) :
    (ofBytes b).byteAt p = .ok byte := by
  rw [byteAt_eq_ok_iff, toList_ofBytes, Array.getElem?_toList, h]

end Code

namespace Decoder

variable {d d' : Decoder} {b : Bytes} {p : ℕ}

/-- **Success**: a decoder answers an instruction exactly if the bytes of that
instruction stand at its position, and then it stands behind them. -/
lemma decode_eq_ok_iff {i : Instruction} :
    d.decode = (.ok i, d') ↔
      i.encode <+: d.code.toList.drop d.position ∧ d' = d.advance i.size := by
  rw [← Code.decodeAt_eq_ok_iff, ← decode_fst]
  constructor
  · intro h
    have hfst : d.decode.1 = .ok i := by rw [h]
    have hcode := d.code_decode
    have hposition := position_decode hfst
    rw [h] at hcode hposition
    refine ⟨hfst, ?_⟩
    obtain ⟨code, position⟩ := d'
    dsimp only at hcode hposition
    rw [hcode, hposition]
    rfl
  · rintro ⟨hfst, rfl⟩
    have hcode := d.code_decode
    have hposition := position_decode hfst
    cases hd : d.decode with
    | mk result after =>
        rw [hd] at hfst hcode hposition
        obtain ⟨code, position⟩ := after
        dsimp only at hfst hcode hposition
        rw [hfst, hcode, hposition]
        rfl

/-- Past the end a decoder names its position and stays there. -/
lemma decode_of_size_le (h : d.code.size ≤ d.position) :
    d.decode = (.error (.pastEnd d.position), d) := by
  have hbyte : d.code.byteAt d.position = .error (.pastEnd d.position) := by
    rw [Code.byteAt, if_neg (by omega), Code.missing, max_eq_left h]
  rw [decode_eq, hbyte]

/-- At a byte that is no opcode a decoder names the offset and the byte, and
stands behind it. -/
lemma decode_of_unknown {byte : UInt8} (h : d.code.byteAt d.position = .ok byte)
    (hbyte : 14 ≤ byte.toNat) :
    d.decode = (.error (.unknownOpcode d.position byte), d.advance 1) := by
  rw [decode_eq, h]
  dsimp only
  rw [Opcode.ofByte?_eq_none_iff.mpr hbyte]

/-- Without the whole operand a decoder names the end of the code, and stands
behind the opcode byte. -/
lemma decode_of_truncated {op : Opcode} (h : d.code.byteAt d.position = .ok op.byte)
    (hp : d.position < d.code.size) (hend : d.code.size < d.position + op.size) :
    d.decode = (.error (.pastEnd d.code.size), d.advance 1) := by
  rw [Opcode.size] at hend
  have hoperand : d.code.operandAt op.operandBytes (d.position + 1)
      = .error (.pastEnd d.code.size) := by
    rw [Code.operandAt, if_neg (by omega), Code.missing, max_eq_right hp]
  rw [decode_eq, h]
  simp only [Opcode.ofByte?_byte, hoperand]

/-- With the whole operand a decoder answers an instruction. -/
lemma decode_of_complete {op : Opcode} (h : d.code.byteAt d.position = .ok op.byte)
    (hend : d.position + op.size ≤ d.code.size) :
    ∃ i : Instruction, i.opcode = op ∧ d.decode = (.ok i, d.advance op.size) := by
  rw [Opcode.size] at hend
  rw [decode_eq, h]
  simp only [Opcode.ofByte?_byte, Code.operandAt_eq_ok
    (show d.position + 1 + op.operandBytes ≤ d.code.size by omega)]
  exact ⟨_, Instruction.opcode_ofOperand _ _, rfl⟩

end Decoder

namespace Instruction

/-- The bytes of an instruction stand at a position exactly if they are the
ones from there to where the instruction ends. -/
lemma encode_prefix_drop_iff (i : Instruction) {b : Bytes} {p : ℕ} :
    i.encode <+: b.toList.drop p ↔
      p + i.size ≤ b.size ∧ (b.extract p (p + i.size)).toList = i.encode := by
  have hpos : 0 < i.size := i.opcode.size_pos
  have hextract : (b.extract p (p + i.size)).toList = (b.toList.drop p).take i.size := by
    rw [Array.toList_extract, List.extract_eq_take_drop, Nat.add_sub_cancel_left]
  rw [hextract, List.prefix_iff_eq_take, length_encode]
  constructor
  · intro h
    have hlength := congrArg List.length h
    rw [length_encode, List.length_take, List.length_drop, Array.length_toList] at hlength
    exact ⟨by omega, h.symm⟩
  · rintro ⟨-, h⟩
    exact h.symm

/-- A buffer that is too short stays as it is. -/
lemma encodeInto_of_lt {i : Instruction} {buffer : Bytes} (h : buffer.size < i.size) :
    i.encodeInto buffer = (none, buffer) :=
  if_neg (Nat.not_le.mpr h)

/-- An instruction is written over the start of a buffer that has room for
it. -/
lemma encodeInto_of_le {i : Instruction} {buffer : Bytes} (h : i.size ≤ buffer.size) :
    ∃ written, i.encodeInto buffer = (some i.size, written) ∧
      written.toList = i.encode ++ buffer.toList.drop i.size := by
  refine ⟨buffer.overwrite 0 i.encode, if_pos h, ?_⟩
  rw [Bytes.toList_overwrite _ (by rw [length_encode]; omega), length_encode]
  simp

end Instruction

namespace Decoder

/-- **Encoding and decoding are exact inverses**, at every position of every
byte string: a decoder answers an instruction and stands at `q` exactly if the
instruction ends at `q` within the string and its bytes are the ones in
between. Past the end a decoder names its position and stays; behind a byte
that is no opcode, or an opcode without its whole operand, it has moved by one.
In place an instruction is written whole, over its size and nothing else, or
not at all. -/
theorem decode_inverts_encode (b : Bytes) (p : ℕ) :
    let d : Decoder := ⟨.ofBytes b, p⟩
    (∀ i q, d.decode = (.ok i, ⟨.ofBytes b, q⟩) ↔
      q = p + i.size ∧ q ≤ b.size ∧ (b.extract p q).toList = i.encode) ∧
    (b.size ≤ p → d.decode = (.error (.pastEnd p), d)) ∧
    (∀ byte, b[p]? = some byte → 14 ≤ byte.toNat →
      d.decode = (.error (.unknownOpcode p byte), ⟨.ofBytes b, p + 1⟩)) ∧
    (∀ byte, b[p]? = some byte → byte.toNat < 14 → ∃ op : Opcode, op.byte = byte ∧
      (b.size < p + op.size → d.decode = (.error (.pastEnd b.size), ⟨.ofBytes b, p + 1⟩)) ∧
      (p + op.size ≤ b.size →
        ∃ i, i.opcode = op ∧ d.decode = (.ok i, ⟨.ofBytes b, p + op.size⟩))) ∧
    ∀ (i : Instruction) (buffer : Bytes),
      i.encode.length = i.size ∧
      ((i.encodeInto buffer).1 = none ↔ buffer.size < i.size) ∧
      (buffer.size < i.size → i.encodeInto buffer = (none, buffer)) ∧
      (i.size ≤ buffer.size → ∃ written, i.encodeInto buffer = (some i.size, written) ∧
        written.toList = i.encode ++ buffer.toList.drop i.size) := by
  intro d
  refine ⟨fun i q => ?_, decode_of_size_le (d := d), fun byte hget => decode_of_unknown (d := d)
    (Code.byteAt_ofBytes hget), fun byte hget hlow => ?_, fun i buffer => ?_⟩
  · rw [decode_eq_ok_iff, Code.toList_ofBytes, Instruction.encode_prefix_drop_iff]
    constructor
    · rintro ⟨⟨hend, hbytes⟩, hd⟩
      have hq : q = p + i.size := congrArg Decoder.position hd
      subst hq
      exact ⟨rfl, hend, hbytes⟩
    · rintro ⟨rfl, hend, hbytes⟩
      exact ⟨⟨hend, hbytes⟩, rfl⟩
  · obtain ⟨op, hop⟩ : ∃ op, Opcode.ofByte? byte = some op := by
      rw [← Option.ne_none_iff_exists', ne_eq, Opcode.ofByte?_eq_none_iff]
      omega
    obtain rfl := Opcode.ofByte?_eq_some_iff.mp hop
    have hp : p < b.size := (Array.getElem?_eq_some_iff.mp hget).1
    have hbyte : d.code.byteAt d.position = .ok op.byte := Code.byteAt_ofBytes hget
    exact ⟨op, rfl, decode_of_truncated hbyte hp, decode_of_complete hbyte⟩
  · refine ⟨i.length_encode, ?_, Instruction.encodeInto_of_lt, Instruction.encodeInto_of_le⟩
    constructor
    · intro hnone
      by_contra hroom
      obtain ⟨written, hwritten, -⟩ := Instruction.encodeInto_of_le (Nat.le_of_not_lt hroom)
      rw [hwritten] at hnone
      cases hnone
    · intro hshort
      rw [Instruction.encodeInto_of_lt hshort]

/-- `PUSH -2` between other bytes, a byte that is no opcode, and a `JMP` whose
target lacks a byte. -/
theorem decode_inverts_encode_of_negative :
    let b : Bytes := #[9, 1, 254, 255, 255, 255, 14, 5, 1]
    (Decoder.mk (.ofBytes b) 1).decode = (.ok (.push (-2)), ⟨.ofBytes b, 6⟩) ∧
      (Decoder.mk (.ofBytes b) 6).decode = (.error (.unknownOpcode 6 14), ⟨.ofBytes b, 7⟩) ∧
      (Decoder.mk (.ofBytes b) 7).decode = (.error (.pastEnd 9), ⟨.ofBytes b, 8⟩) ∧
      (Decoder.mk (.ofBytes b) 18446744073709551615).decode
        = (.error (.pastEnd 18446744073709551615), ⟨.ofBytes b, 18446744073709551615⟩) := by
  intro b
  obtain ⟨hok, -⟩ := decode_inverts_encode b 1
  obtain ⟨-, -, hunknown, -⟩ := decode_inverts_encode b 6
  obtain ⟨-, -, -, hknown, -⟩ := decode_inverts_encode b 7
  obtain ⟨-, hpast, -⟩ := decode_inverts_encode b 18446744073709551615
  refine ⟨(hok (.push (-2)) 6).mpr ⟨rfl, by decide, by decide⟩,
    hunknown 14 rfl (by decide), ?_, hpast (by decide)⟩
  obtain ⟨op, hop, htruncated, -⟩ := hknown 5 rfl (by decide)
  obtain rfl : Opcode.jmp = op := Option.some.inj (Opcode.ofByte?_eq_some_iff.mpr hop.symm)
  exact htruncated (by decide)

end Decoder

end Bytecode
