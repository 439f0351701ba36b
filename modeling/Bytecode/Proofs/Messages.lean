/-
What a message says: it determines the error that it is for, with every number,
name and offset in it.

* `Text.spaced` and `Text.Wording`: parts with a blank between each two, and a text
  that is made of such parts; `Wording.injective`: the parts can be read off it;
* `DecodeError.parts`, `LoadError.parts`, `Fault.parts` and `AssemblyError.parts`: the
  messages part by part, each number, name and offset a part of its own;
* `DecodeError.message_injective`, `LoadError.message_injective`,
  `Fault.message_injective` and `AssemblyError.message_injective` (**no two errors
  share their message**); `unknownOpcodeMessage_injective`: the same of bytes that are
  no opcodes.
-/
import Mathlib
import Bytecode.Assembler
import Bytecode.Proofs.Legibility

namespace Bytecode

/-! ### Parts of a text -/

namespace Text

/-- Parts with a blank between each two. -/
def spaced (parts : List String) : String :=
  " ".intercalate parts

@[simp] lemma toList_spaced_singleton (part : String) : (spaced [part]).toList = part.toList := by
  rw [spaced, String.intercalate_singleton]

@[simp] lemma toList_spaced_cons (part part' : String) (rest : List String) :
    (spaced (part :: part' :: rest)).toList =
      part.toList ++ ' ' :: (spaced (part' :: rest)).toList := by
  simp [spaced]

/-- A text is made of parts that have no blank in them. -/
structure Wording (text : String) (parts : List String) : Prop where
  text_eq : text = spaced parts
  ne_nil : parts ≠ []
  blank_notMem : ∀ part ∈ parts, ' ' ∉ part.toList

/-- Between two blanks, or before the first or behind the last of them, stands one
part. -/
lemma Wording.split_eq {text : String} {parts : List String} (h : Wording text parts) :
    (text.split ' ').toList.map (·.copy) = parts := by
  have hsplit := String.toList_split_intercalate h.blank_notMem
  rw [if_neg h.ne_nil] at hsplit
  rw [h.text_eq]
  exact hsplit

/-- **Reading off the parts**: if no two errors have the same parts, then no two have
the same message. -/
theorem Wording.injective {ε : Type} {message : ε → String} {parts : ε → List String}
    (h : ∀ e, Wording (message e) (parts e)) (hparts : Function.Injective parts) :
    Function.Injective message := by
  intro e e' heq
  apply hparts
  rw [← (h e).split_eq, ← (h e').split_eq, heq]

@[simp] lemma blank_notMem_decimal (n : ℕ) : ' ' ∉ (decimal n).toList :=
  notMem_integer rfl (by decide) n

@[simp] lemma blank_notMem_hex (width n : ℕ) : ' ' ∉ (hex width n).toList :=
  notMem_hex (fun _ => Nat.digitChar_ne _ (by decide)) width n

end Text

@[simp] lemma Word.blank_notMem_text (v : Word) : ' ' ∉ v.text.toList :=
  Text.notMem_integer rfl (by decide) v.toInt

/-- No two words share their text. -/
lemma Word.text_injective : Function.Injective Word.text := fun _ _ h =>
  Int32.toInt_inj.mp (Text.integer_injective h)

/-! ### Errors of decoding -/

namespace DecodeError

/-- The message part by part. -/
def parts : DecodeError → List String
  | pastEnd position =>
      ["instruction", "pointer", Text.decimal position, "is", "outside", "the", "instruction",
        "buffer"]
  | unknownOpcode offset byte =>
      ["invalid", "instruction", "0x" ++ Text.hex 2 byte.toNat, "at", "offset",
        Text.decimal offset]

/-- The message is made of its parts. -/
lemma wording (e : DecodeError) : Text.Wording e.message e.parts where
  text_eq := by
    rw [← String.toList_inj]
    -- the defining equations of texts as long as these are slow to derive
    delta message parts
    cases e <;> simp
  ne_nil := by cases e <;> simp [parts]
  blank_notMem := by cases e <;> simp [parts]

/-- No two errors have the same parts. -/
lemma parts_injective : Function.Injective parts := by
  intro e e' h
  cases e with
  | pastEnd position =>
      cases e' with
      | pastEnd position' => simpa [parts, Text.decimal_injective.eq_iff] using h
      | unknownOpcode offset' byte' => simp [parts] at h
  | unknownOpcode offset byte =>
      cases e' with
      | pastEnd position' => simp [parts] at h
      | unknownOpcode offset' byte' =>
          simpa [parts, (Text.hex_injective 2).eq_iff, UInt8.toNat_inj,
            Text.decimal_injective.eq_iff, and_comm] using h

/-- **No two errors of decoding share their message**: it names the position, and the
byte that is no opcode. -/
theorem message_injective : Function.Injective message :=
  Text.Wording.injective wording parts_injective

end DecodeError

/-- No two bytes share the message that they are no opcode. -/
lemma unknownOpcodeMessage_injective : Function.Injective unknownOpcodeMessage := fun _ _ h =>
  UInt8.toNat_inj.mp (Text.hex_injective 2 ((String.append_right_inj "unknown opcode 0x").mp h))

/-! ### Errors of loading -/

/-- No two resources share the name of their limit. -/
lemma Resource.option_injective : Function.Injective Resource.option := by
  intro r r' h
  cases r <;> cases r' <;> first | rfl | exact absurd h (by decide)

namespace LoadError

/-- The message part by part. -/
def parts : LoadError → List String
  | limitOutOfRange resource value capacity =>
      [resource.option, "of", Text.decimal value, "must", "be", "between", "1", "and",
        Text.decimal capacity]
  | programTooLarge size capacity =>
      ["program", "of", Text.decimal size, "bytes", "does", "not", "fit", "the",
        Text.decimal capacity, "byte", "instruction", "buffer"]

/-- The message is made of its parts. -/
lemma wording (e : LoadError) : Text.Wording e.message e.parts where
  text_eq := by
    rw [← String.toList_inj]
    delta message parts
    cases e <;> simp
  ne_nil := by cases e <;> simp [parts]
  blank_notMem := by
    cases e with
    | limitOutOfRange resource value capacity => cases resource <;> simp [parts, Resource.option]
    | programTooLarge size capacity => simp [parts]

/-- No two errors have the same parts. -/
lemma parts_injective : Function.Injective parts := by
  intro e e' h
  cases e with
  | limitOutOfRange resource value capacity =>
      cases e' with
      | limitOutOfRange resource' value' capacity' =>
          simpa [parts, Resource.option_injective.eq_iff, Text.decimal_injective.eq_iff] using h
      | programTooLarge size' capacity' => simp [parts] at h
  | programTooLarge size capacity =>
      cases e' with
      | limitOutOfRange resource' value' capacity' => simp [parts] at h
      | programTooLarge size' capacity' =>
          simpa [parts, Text.decimal_injective.eq_iff] using h

/-- **No two errors of loading share their message**: it names the option and the range
of its values, or both sizes. -/
theorem message_injective : Function.Injective message :=
  Text.Wording.injective wording parts_injective

end LoadError

/-! ### Faults -/

namespace Fault

/-- The message part by part. -/
def parts : Fault → List String
  | undecodable error => error.parts
  | stackOverflow offset value =>
      ["stack", "overflow", "pushing", value.text, "at", "offset", Text.decimal offset]
  | stackUnderflow opcode offset needed found =>
      [opcode.mnemonic, "at", "offset", Text.decimal offset, "needs", Text.decimal needed,
        "operand(s)", "on", "the", "stack,", "found", Text.decimal found]
  | invalidRegister offset register =>
      ["invalid", "register", "index", Text.decimal register.toNat, "at", "offset",
        Text.decimal offset]
  | invalidTarget offset target =>
      ["invalid", "instruction", "index", Text.decimal target.toNat, "at", "offset",
        Text.decimal offset]
  | divisionByZero offset => ["division", "by", "zero", "at", "offset", Text.decimal offset]
  | outputRefused offset =>
      ["PRINT", "at", "offset", Text.decimal offset, "could", "not", "write", "its", "output"]

/-- The message is made of its parts. -/
lemma wording (fault : Fault) : Text.Wording fault.message fault.parts := by
  cases fault with
  | undecodable error => exact error.wording
  | _ =>
      constructor
      · rw [← String.toList_inj]
        delta message parts
        simp
      · simp [parts]
      · simp [parts, Opcode.blank_notMem_mnemonic]

/-- No two faults have the same parts. The messages differ in their lengths or in their
first two parts, but for those about a register and a target, and a missing
instruction has the parts of its error. -/
lemma parts_injective : Function.Injective parts := by
  intro fault fault' h
  cases fault with
  | undecodable error =>
      cases fault' with
      | undecodable error' => exact congrArg _ (DecodeError.parts_injective h)
      | _ => cases error <;> simp [parts, DecodeError.parts] at h
  | _ =>
      cases fault' with
      | undecodable error' => cases error' <;> simp [parts, DecodeError.parts] at h
      | _ =>
          simp_all [parts, Text.decimal_injective.eq_iff, Word.text_injective.eq_iff,
            Opcode.mnemonic_injective.eq_iff, UInt8.toNat_inj, UInt16.toNat_inj]

/-- **No two faults share their message**: it names the offset, and what the instruction
there was missing. -/
theorem message_injective : Function.Injective message :=
  Text.Wording.injective wording parts_injective

/-- A `PRINT` that finds nothing to print is told from one whose output is refused. -/
example : (stackUnderflow .print 5 1 0).message ≠ (outputRefused 5).message :=
  message_injective.ne (by decide)

end Fault

/-! ### Errors of assembly -/

namespace AssemblyError

/-- The message part by part. -/
def parts : AssemblyError → List String
  | bufferTooSmall => ["program", "buffer", "is", "too", "small"]
  | targetOutOfRange offset =>
      ["offset", Text.decimal offset, "can", "not", "be", "encoded", "as", "a", "jump", "target"]
  | notAJump opcode => [opcode.mnemonic, "is", "not", "a", "jump", "instruction"]

/-- The message is made of its parts. -/
lemma wording (e : AssemblyError) : Text.Wording e.message e.parts where
  text_eq := by
    rw [← String.toList_inj]
    delta message parts
    cases e <;> simp
  ne_nil := by cases e <;> simp [parts]
  blank_notMem := by cases e <;> simp [parts, Opcode.blank_notMem_mnemonic]

/-- No two errors have the same parts. -/
lemma parts_injective : Function.Injective parts := by
  intro e e' h
  cases e <;> cases e' <;>
    simp_all [parts, Text.decimal_injective.eq_iff, Opcode.mnemonic_injective.eq_iff]

/-- **No two errors of assembly share their message**: it names the offset or the opcode. -/
theorem message_injective : Function.Injective message :=
  Text.Wording.injective wording parts_injective

end AssemblyError

end Bytecode
