/-
Listings as text, and what can be read off them.

* `Opcode.mnemonic_injective` and `blank_notMem_mnemonic`: a mnemonic is one word,
  and says which opcode it is for;
* `Instruction.text_injective` (**no two instructions share their text**): the
  mnemonic ends at the first blank, and the operand of one opcode is always
  written in one way;
* `Entry.lines`: entries as text, each on a line of its own;
* `Entry.lines_injective` (**the lines determine the entries**): the offset ends at
  the first blank, however many digits it has, and the instruction at the end of
  its line.
-/
import Mathlib
import Bytecode.Command.Session
import Bytecode.Listing.Lemmas
import Bytecode.Text.Numeral.Lemmas

namespace Bytecode

/-! ### Words and lines -/

namespace Text

variable {c : Char} {word word' rest rest' : List Char}

/-- A word is read off up to a character that it does not have. -/
lemma takeWhile_append_of_notMem (h : c ∉ word) (rest : List Char) :
    (word ++ rest).takeWhile (· != c) = word ++ rest.takeWhile (· != c) := by
  refine List.takeWhile_append_of_pos fun d hd => ?_
  rw [bne_iff_ne]
  rintro rfl
  exact h hd

/-- A word in front of a character that it does not have is determined, and so is
what stands behind that character. -/
lemma eq_of_append_cons_eq (h : c ∉ word) (h' : c ∉ word')
    (heq : word ++ c :: rest = word' ++ c :: rest') : word = word' ∧ rest = rest' := by
  have hword := congrArg (List.takeWhile (· != c)) heq
  simp only [takeWhile_append_of_notMem h, takeWhile_append_of_notMem h', List.takeWhile_cons,
    bne_self_eq_false, Bool.false_eq_true, if_false, List.append_nil] at hword
  subst hword
  exact ⟨rfl, (List.cons.inj (List.append_cancel_left heq)).2⟩

end Text

/-! ### Instructions -/

/-- The text of a word is short. -/
lemma Word.length_text_le (v : Word) : v.text.toList.length ≤ 11 := by
  have habs : v.toInt.natAbs < 10 ^ 10 := by
    have hlow := v.le_toInt
    have hhigh := v.toInt_lt
    omega
  exact Text.length_integer_le (by norm_num) habs

namespace Opcode

/-- A mnemonic has no blank in it. -/
lemma blank_notMem_mnemonic (op : Opcode) : ' ' ∉ op.mnemonic.toList := by
  cases op <;> decide

/-- A mnemonic does not break the line. -/
lemma newline_notMem_mnemonic (op : Opcode) : '\n' ∉ op.mnemonic.toList := by
  cases op <;> decide

/-- No two opcodes share their mnemonic. -/
lemma mnemonic_injective : Function.Injective mnemonic := by
  intro op op' h
  cases op <;> cases op' <;> first | rfl | exact absurd h (by decide)

end Opcode

namespace Instruction

/-- What stands behind the mnemonic: nothing, or a blank and the operand. -/
def suffix (i : Instruction) : List Char :=
  (i.operandText?.map fun operand => ' ' :: operand.toList).getD []

/-- The text of an instruction is its mnemonic and its operand. -/
lemma toList_text (i : Instruction) :
    i.text.toList = i.opcode.mnemonic.toList ++ i.suffix := by
  rw [text, suffix]
  cases i.operandText? with
  | none => exact (List.append_nil _).symm
  | some operand =>
      simp only [String.toList_append, Option.map_some, Option.getD_some, List.append_assoc]
      rfl

/-- What stands behind the mnemonic shows whether there is an operand, and which. -/
lemma operandText?_of_suffix {i j : Instruction} (h : i.suffix = j.suffix) :
    i.operandText? = j.operandText? := by
  rw [suffix, suffix] at h
  cases hi : i.operandText? <;> cases hj : j.operandText? <;> simp_all [String.toList_inj]

/-- The mnemonic can be read off the text. -/
lemma takeWhile_text (i : Instruction) :
    i.text.toList.takeWhile (· != ' ') = i.opcode.mnemonic.toList := by
  rw [toList_text, Text.takeWhile_append_of_notMem i.opcode.blank_notMem_mnemonic, suffix]
  cases i.operandText? <;> simp

/-- An instruction is made from its opcode and some operand. -/
lemma exists_eq_ofOperand {i : Instruction} {op : Opcode} (h : op = i.opcode) :
    ∃ n, i = ofOperand op n :=
  ⟨i.operand, by rw [h, ofOperand_operand]⟩

/-- The operands of one opcode differ in their texts. -/
lemma eq_of_operandText? {i j : Instruction} (hop : i.opcode = j.opcode)
    (h : i.operandText? = j.operandText?) : i = j := by
  obtain ⟨n, hj⟩ := exists_eq_ofOperand hop
  have hregister : ∀ r r' : UInt8,
      some ("r" ++ Text.decimal r.toNat) = some ("r" ++ Text.decimal r'.toNat) → r = r' :=
    fun r r' h => UInt8.toNat_inj.mp <|
      Text.decimal_injective ((String.append_right_inj "r").mp (Option.some.inj h))
  have htarget : ∀ t t' : UInt16, some (targetText t) = some (targetText t') → t = t' :=
    fun t t' h => UInt16.toNat_inj.mp <|
      Text.hex_injective 4 ((String.append_right_inj "0x").mp (Option.some.inj h))
  rw [hj] at h ⊢
  cases i with
  | push value =>
      exact congrArg push (Int32.toInt_inj.mp (Text.integer_injective (Option.some.inj h)))
  | load register => exact congrArg load (hregister _ _ h)
  | store register => exact congrArg store (hregister _ _ h)
  | jmp target => exact congrArg jmp (htarget _ _ h)
  | jz target => exact congrArg jz (htarget _ _ h)
  | jnz target => exact congrArg jnz (htarget _ _ h)
  | _ => rfl

/-- **No two instructions share their text.** -/
theorem text_injective : Function.Injective text := by
  intro i j h
  have hop : i.opcode = j.opcode := by
    apply Opcode.mnemonic_injective
    rw [← String.toList_inj, ← takeWhile_text, ← takeWhile_text, h]
  have hsuffix : i.suffix = j.suffix := by
    have hlist := congrArg String.toList h
    rwa [toList_text, toList_text, hop, List.append_cancel_left_eq] at hlist
  exact eq_of_operandText? hop (operandText?_of_suffix hsuffix)

/-- What holds of the texts of all words, registers and targets holds of the text of
an operand. -/
lemma operandText?_induction {P : String → Prop} (hword : ∀ v : Word, P v.text)
    (hregister : ∀ r : UInt8, P ("r" ++ Text.decimal r.toNat))
    (htarget : ∀ t : UInt16, P (targetText t)) (i : Instruction) :
    ∀ operand ∈ i.operandText?, P operand := by
  intro operand hmem
  cases i with
  | push value => exact Option.some.inj hmem ▸ hword value
  | load register => exact Option.some.inj hmem ▸ hregister register
  | store register => exact Option.some.inj hmem ▸ hregister register
  | jmp target => exact Option.some.inj hmem ▸ htarget target
  | jz target => exact Option.some.inj hmem ▸ htarget target
  | jnz target => exact Option.some.inj hmem ▸ htarget target
  | _ => cases hmem

/-- The text of an instruction does not break the line. -/
lemma newline_notMem_text (i : Instruction) : '\n' ∉ i.text.toList := by
  have hregister : ∀ r : UInt8, '\n' ∉ ("r" ++ Text.decimal r.toNat).toList := by
    intro r
    rw [String.toList_append, List.mem_append, not_or]
    exact ⟨by decide, Text.notMem_integer rfl (by decide) r.toNat⟩
  have htarget : ∀ t : UInt16, '\n' ∉ (targetText t).toList := by
    intro t
    rw [targetText, String.toList_append, List.mem_append, not_or]
    exact ⟨by decide, Text.notMem_hex (fun _ => Nat.digitChar_ne _ (by decide)) 4 _⟩
  have hoperand := i.operandText?_induction (P := fun text => '\n' ∉ text.toList)
    (fun v => Text.notMem_integer rfl (by decide) v.toInt) hregister htarget
  rw [toList_text, List.mem_append, not_or, suffix]
  refine ⟨i.opcode.newline_notMem_mnemonic, ?_⟩
  cases hop : i.operandText? with
  | none => simp
  | some operand => simpa using hoperand operand hop

/-- The text of an instruction is short. -/
lemma length_text_le (i : Instruction) : i.text.toList.length ≤ 17 := by
  have hmnemonic : i.opcode.mnemonic.toList.length ≤ 5 := by
    cases i.opcode <;> decide
  have hregister : ∀ r : UInt8, ("r" ++ Text.decimal r.toNat).toList.length ≤ 11 := by
    intro r
    have hr : r.toNat < 10 ^ 3 := r.toNat_lt.trans (by norm_num)
    have hlength := Text.length_decimal_le (by norm_num) hr
    rw [String.toList_append, List.length_append, String.length_toList]
    exact (Nat.add_le_add_left hlength _).trans (by decide)
  have htarget : ∀ t : UInt16, (targetText t).toList.length ≤ 11 := by
    intro t
    have ht : t.toNat < 16 ^ 4 := t.toNat_lt.trans_le (by norm_num)
    have hlength := Text.length_hex_le (by norm_num) ht
    rw [targetText, String.toList_append, List.length_append, String.length_toList]
    exact (Nat.add_le_add_left hlength _).trans (by decide)
  have hoperand := i.operandText?_induction (P := fun text => text.toList.length ≤ 11)
    Word.length_text_le hregister htarget
  have hsuffix : i.suffix.length ≤ 12 := by
    rw [suffix]
    cases hop : i.operandText? with
    | none => exact Nat.zero_le _
    | some operand => exact Nat.succ_le_succ (hoperand operand hop)
  rw [toList_text, List.length_append]
  omega

end Instruction

/-! ### Lines -/

namespace Entry

/-- An entry as a line: its offset in at least five digits of base sixteen, two
blanks, and its instruction. -/
def line (e : Entry) : String :=
  String.ofList ((Nat.toDigits 16 e.offset).leftpad 5 '0') ++ "  " ++ e.instruction.text ++ "\n"

/-- Entries as text, each on a line of its own. -/
def lines (entries : List Entry) : String :=
  String.join (entries.map line)

/-- The line of an entry is the one that the command writes. -/
lemma line_eq (e : Entry) : Command.entryLine e = e.line :=
  rfl

/-- The lines of entries behind others come behind the lines of those. -/
lemma lines_append (entries entries' : List Entry) :
    lines (entries ++ entries') = lines entries ++ lines entries' := by
  rw [← String.toList_inj]
  simp [lines]

/-- The lines begin with that of the first entry. -/
lemma lines_cons (e : Entry) (entries : List Entry) :
    lines (e :: entries) = e.line ++ lines entries :=
  String.join_cons

/-- A line is an offset, two blanks, an instruction and the end of the line. -/
lemma toList_line (e : Entry) :
    e.line.toList
      = (Text.hex 5 e.offset).toList
        ++ ' ' :: ' ' :: (e.instruction.text.toList ++ ['\n']) := by
  simp [line, Text.hex, Text.digits]

/-- A line in front of a text determines its entry and the rest of the text. -/
lemma line_append_inj {e e' : Entry} {rest rest' : String}
    (h : e.line ++ rest = e'.line ++ rest') : e = e' ∧ rest = rest' := by
  have hblank : ∀ n, ' ' ∉ (Text.hex 5 n).toList :=
    Text.notMem_hex (fun _ => Nat.digitChar_ne _ (by decide)) 5
  have hlist := congrArg String.toList h
  simp only [String.toList_append, toList_line, List.append_assoc, List.cons_append,
    List.nil_append] at hlist
  obtain ⟨hoffset, hbehind⟩ := Text.eq_of_append_cons_eq (hblank _) (hblank _) hlist
  obtain ⟨htext, hrest⟩ := Text.eq_of_append_cons_eq e.instruction.newline_notMem_text
    e'.instruction.newline_notMem_text (List.cons.inj hbehind).2
  have hoffset : e.offset = e'.offset := Text.hex_injective 5 (String.toList_inj.mp hoffset)
  have hinstruction : e.instruction = e'.instruction :=
    Instruction.text_injective (String.toList_inj.mp htext)
  refine ⟨?_, String.toList_inj.mp hrest⟩
  rw [Entry.mk.injEq]
  exact ⟨hoffset, hinstruction⟩

/-- Where there is an entry there is a line. -/
lemma lines_cons_ne_nil (e : Entry) (entries : List Entry) : lines (e :: entries) ≠ lines [] := by
  intro h
  have hlist := congrArg String.toList h
  simp [lines, toList_line] at hlist

/-- **The lines determine the entries.** -/
theorem lines_injective : Function.Injective lines := by
  intro entries entries' h
  induction entries generalizing entries' with
  | nil =>
      cases entries' with
      | nil => rfl
      | cons e' rest' => exact absurd h.symm (lines_cons_ne_nil e' rest')
  | cons e rest ih =>
      cases entries' with
      | nil => exact absurd h (lines_cons_ne_nil e rest)
      | cons e' rest' =>
          rw [lines_cons, lines_cons] at h
          obtain ⟨rfl, hrest⟩ := line_append_inj h
          rw [ih hrest]

/-- An offset that is wider than the others. -/
example : lines [⟨0, .push (-7)⟩, ⟨1048576, .jmp 16⟩]
    = "00000  PUSH -7\n100000  JMP 0x0010\n" := by decide +kernel

end Entry

end Bytecode
