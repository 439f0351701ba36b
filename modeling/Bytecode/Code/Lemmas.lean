/-
Code as a list of bytes.

* `byteAt_eq_ok_iff`, `operandAt_eq_ok`: reads are reads of the list;
* `decodeAt_eq_ok_iff` (**decoding inverts encoding**): the instruction
  at a position is the one whose bytes stand there;
* `decodeAt_of_isPrefix`: more bytes behind the code change nothing but what
  an instruction lacks that reaches past the end;
* `decodeAt_congr` (**decoding is local**): it depends on the opcode byte and
  the operand behind it alone.
-/
import Mathlib
import Bytecode.Code
import Bytecode.Instruction.Lemmas

namespace Bytecode.Code

/-- The bytes of code up to a limit. -/
lemma toList_upTo (b : Bytes) (n : ℕ) : (upTo b n).toList = b.toList.take n := by
  change b.toList.take (min n b.size) = b.toList.take n
  rw [List.take_eq_take_iff, Array.length_toList]
  omega

/-- The bytes of whole code. -/
@[simp] lemma toList_ofBytes (b : Bytes) : (ofBytes b).toList = b.toList := by
  change b.toList.take b.size = b.toList
  rw [← Array.length_toList, List.take_length]

/-- A byte below the end is the one in the list. -/
lemma byteAt_eq_ok_iff {c : Code} {p : ℕ} {byte : UInt8} :
    c.byteAt p = .ok byte ↔ c.toList[p]? = some byte := by
  have hs := c.size_le
  rw [byteAt]
  by_cases hp : p < c.size
  · rw [if_pos hp, toList, List.getElem?_take_of_lt hp, ← Array.getElem_eq_getD (h := by omega)]
    simp [Array.getElem?_eq_getElem (show p < c.bytes.size by omega)]
  · rw [if_neg hp, List.getElem?_eq_none (by rw [length_toList]; omega)]
    simp

/-- A number within the code stands in the list. -/
lemma operandAt_eq_ok {c : Code} {w p : ℕ} (h : p + w ≤ c.size) :
    c.operandAt w p = .ok (ofLittleEndian ((c.toList.drop p).take w)) := by
  rw [operandAt, if_pos h, slice_eq_take_drop c h]

/-- The bytes that an instruction was decoded from. -/
lemma encode_isPrefix_of_decodeAt {c : Code} {p : ℕ} {i : Instruction}
    (h : c.decodeAt p = .ok i) : i.encode <+: c.toList.drop p := by
  have hsize := add_size_le_of_decodeAt h
  rw [decodeAt] at h
  cases hb : c.byteAt p with
  | error e => simp [hb] at h
  | ok byte =>
      simp only [hb] at h
      cases ho : Opcode.ofByte? byte with
      | none => simp [ho] at h
      | some op =>
          simp only [ho] at h
          have hget := byteAt_eq_ok_iff.mp hb
          have hdrop : c.toList.drop p = byte :: c.toList.drop (p + 1) := by
            obtain ⟨hlt, hbyte⟩ := List.getElem?_eq_some_iff.mp hget
            rw [List.drop_eq_getElem_cons hlt, hbyte]
          by_cases hfit : p + 1 + op.operandBytes ≤ c.size
          · rw [operandAt_eq_ok hfit] at h
            cases h
            have hlen : ((c.toList.drop (p + 1)).take op.operandBytes).length
                = op.operandBytes := by
              rw [List.length_take, List.length_drop, length_toList]
              omega
            have hlt := ofLittleEndian_lt ((c.toList.drop (p + 1)).take op.operandBytes)
            rw [hlen] at hlt
            have hback := littleEndian_ofLittleEndian
              ((c.toList.drop (p + 1)).take op.operandBytes)
            rw [hlen] at hback
            rw [Instruction.encode, Instruction.encodeOperand_eq, Instruction.opcode_ofOperand,
              Instruction.operand_ofOperand hlt, hback, hdrop,
              ← Opcode.ofByte?_eq_some_iff.mp ho]
            exact List.cons_prefix_cons.mpr ⟨rfl, List.take_prefix _ _⟩
          · rw [operandAt, if_neg hfit] at h
            cases h

/-- An instruction is decoded from its bytes. -/
lemma decodeAt_of_encode_isPrefix {c : Code} {p : ℕ} {i : Instruction}
    (h : i.encode <+: c.toList.drop p) : c.decodeAt p = .ok i := by
  obtain ⟨rest, hrest⟩ := h
  rw [Instruction.encode, Instruction.encodeOperand_eq, List.cons_append] at hrest
  have hlen := congrArg List.length hrest
  rw [List.length_cons, List.length_append, length_littleEndian, List.length_drop,
    length_toList] at hlen
  have hbyte : c.byteAt p = .ok i.opcode.byte := by
    rw [byteAt_eq_ok_iff, ← List.head?_drop, ← hrest]
    rfl
  have htail : c.toList.drop (p + 1) = littleEndian i.opcode.operandBytes i.operand ++ rest := by
    rw [← List.tail_drop, ← hrest]
    rfl
  rw [decodeAt]
  simp only [hbyte, Opcode.ofByte?_byte]
  rw [operandAt_eq_ok (by omega), htail, List.take_left' (length_littleEndian _ _),
    Instruction.ofLittleEndian_operand]
  exact congrArg Except.ok i.ofOperand_operand

/-- **Decoding inverts encoding**: the instruction at a position is the
one whose bytes stand there. -/
theorem decodeAt_eq_ok_iff {c : Code} {p : ℕ} {i : Instruction} :
    c.decodeAt p = .ok i ↔ i.encode <+: c.toList.drop p :=
  ⟨encode_isPrefix_of_decodeAt, decodeAt_of_encode_isPrefix⟩

/-- Code that goes on behind the end of other code has the same bytes up to
there. -/
lemma byteAt_of_isPrefix {c c' : Code} (h : c.toList <+: c'.toList) {p : ℕ} (hp : p < c.size) :
    c'.byteAt p = c.byteAt p := by
  obtain ⟨rest, hrest⟩ := h
  have hlt : p < c.toList.length := by rwa [length_toList]
  have hbyte : c.byteAt p = .ok c.toList[p] :=
    byteAt_eq_ok_iff.mpr (List.getElem?_eq_getElem hlt)
  rw [hbyte, byteAt_eq_ok_iff, ← hrest, List.getElem?_append_left hlt,
    List.getElem?_eq_getElem hlt]

/-- Code that goes on behind the end of other code has the same instruction at
a position, unless the instruction reaches past that end. -/
lemma decodeAt_of_isPrefix {c c' : Code} (h : c.toList <+: c'.toList) {p : ℕ} (hp : p < c.size) :
    c'.decodeAt p = c.decodeAt p ∨
      c.decodeAt p = .error (.pastEnd c.size) ∧ c.size < c'.size := by
  have hle : c.size ≤ c'.size := by simpa using h.length_le
  rw [decodeAt, decodeAt, byteAt_of_isPrefix h hp]
  cases c.byteAt p with
  | error e => exact .inl rfl
  | ok byte =>
      dsimp only
      cases Opcode.ofByte? byte with
      | none => exact .inl rfl
      | some op =>
          dsimp only
          by_cases hfit : p + 1 + op.operandBytes ≤ c.size
          · obtain ⟨rest, hrest⟩ := h
            left
            rw [operandAt_eq_ok hfit, operandAt_eq_ok (hfit.trans hle), ← hrest,
              List.drop_append_of_le_length (by rw [length_toList]; omega),
              List.take_append_of_le_length (by rw [List.length_drop, length_toList]; omega)]
          · have hmissing : c.operandAt op.operandBytes (p + 1) = .error (.pastEnd c.size) := by
              rw [operandAt, if_neg hfit, missing, max_eq_right hp]
            rw [hmissing]
            rcases Nat.lt_or_ge c.size c'.size with hlt | hge
            · exact .inr ⟨rfl, hlt⟩
            · left
              rw [operandAt, if_neg (by omega), missing, max_eq_right (by omega),
                Nat.le_antisymm hge hle]

/-- The byte at an offset is one that decoding at a position looks at: the
opcode byte, or a byte of the operand that the opcode has. -/
def Consults (c : Code) (p q : ℕ) : Prop :=
  q = p ∨ ∃ op : Opcode, c.toList[p]? = some op.byte ∧ p < q ∧ q < p + op.size

/-- A byte is read alike if it is the same in code of the same length. -/
lemma byteAt_congr {c c' : Code} (hsize : c'.size = c.size) {p : ℕ}
    (h : c'.toList[p]? = c.toList[p]?) : c'.byteAt p = c.byteAt p := by
  by_cases hp : p < c.size
  · have hlt : p < c.toList.length := by rwa [length_toList]
    have hbyte : c.byteAt p = .ok c.toList[p] :=
      byteAt_eq_ok_iff.mpr (List.getElem?_eq_getElem hlt)
    rw [hbyte, byteAt_eq_ok_iff, h, List.getElem?_eq_getElem hlt]
  · rw [byteAt, byteAt, if_neg hp, if_neg (by rwa [hsize]), missing, missing, hsize]

/-- A number is read alike if its bytes are the same in code of the same
length. -/
lemma operandAt_congr {c c' : Code} (hsize : c'.size = c.size) {w p : ℕ}
    (h : ∀ q, p ≤ q → q < p + w → c'.toList[q]? = c.toList[q]?) :
    c'.operandAt w p = c.operandAt w p := by
  by_cases hfit : p + w ≤ c.size
  · rw [operandAt_eq_ok hfit, operandAt_eq_ok (by rwa [hsize])]
    congr 2
    apply List.ext_getElem?
    intro k
    by_cases hk : k < w
    · rw [List.getElem?_take_of_lt hk, List.getElem?_take_of_lt hk, List.getElem?_drop,
        List.getElem?_drop, h (p + k) (by omega) (by omega)]
    · rw [List.getElem?_take_eq_none (by omega), List.getElem?_take_eq_none (by omega)]
  · rw [operandAt, operandAt, if_neg hfit, if_neg (by rwa [hsize]), missing, missing, hsize]

/-- **Decoding is local**: code of the same length has the same instruction, or
the same error, at a position if it has the same opcode byte there, and the same
bytes of the operand as far as there are any. -/
theorem decodeAt_congr {c c' : Code} (hsize : c'.size = c.size) {p : ℕ}
    (h : ∀ q < c.size, c.Consults p q → c'.toList[q]? = c.toList[q]?) :
    c'.decodeAt p = c.decodeAt p := by
  -- past the end there is no byte in either code
  have hagree : ∀ q, c.Consults p q → c'.toList[q]? = c.toList[q]? := by
    intro q hq
    by_cases hlt : q < c.size
    · exact h q hlt hq
    · rw [List.getElem?_eq_none (by rw [length_toList]; omega),
        List.getElem?_eq_none (by rw [length_toList]; omega)]
  rw [decodeAt, decodeAt, byteAt_congr hsize (hagree p (.inl rfl))]
  cases hb : c.byteAt p with
  | error e => rfl
  | ok byte =>
      dsimp only
      cases ho : Opcode.ofByte? byte with
      | none => rfl
      | some op =>
          dsimp only
          have hbyte : c.toList[p]? = some op.byte := by
            rw [byteAt_eq_ok_iff.mp hb, ← Opcode.ofByte?_eq_some_iff.mp ho]
          rw [operandAt_congr hsize fun q hle hlt => hagree q (.inr ⟨op, hbyte, by omega, by
            rw [Opcode.size]
            omega⟩)]

end Bytecode.Code
