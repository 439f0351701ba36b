/-
Reads of a decoder, in any order and from any position.

* `readOpcode_of_le`, `readOperand_of_le`: a read that ends within the code, and what it
  reads; `readOpcode_of_lt`, `readOperand_of_lt`: one that does not;
* `Decoder.take`: such a read in three moves, with positions of 64 bits: what is left from
  the position on, the first bytes of that, and a sum that saturates. `take_eq`: the sum
  never does;
* `Width.value`, `toInt_ofNat_eq_value`: the number that an operand stands for;
* `Decoder.decodeByWidth`: decoding with the one read of operands that goes by the width
  of the opcode. `decode_eq_decodeByWidth` (**two readers**): it comes to the same;
* `Onward`: how a decoder moves. Every query keeps to it, and so does any number of
  them (`onward_askAll`);
* `ReadsExactly`: what is read at a position;
* `reads_are_exact`: where any queries lead, and that reads are exact there.
-/
import Mathlib
import Bytecode.Proofs.Codec
import Bytecode.Proofs.Simulation

namespace Bytecode

/-! ### One read -/

namespace Decoder

variable {d d' : Decoder} {w : Width}

/-- The byte at the position is read, whether or not it is an opcode. -/
lemma readOpcode_of_le {byte : UInt8} (h : d.code.toList[d.position]? = some byte) :
    d.readOpcode = (.ok byte, d.advance 1) := by
  rw [readOpcode, Code.byteAt_eq_ok_iff.mpr h]

/-- Without a byte at the position none is read. -/
lemma readOpcode_of_lt (h : d.code.size < d.position + 1) :
    d.readOpcode = (.error (.pastEnd (max d.position d.code.size)), d) := by
  rw [readOpcode, Code.byteAt, if_neg (by omega), Code.missing]

/-- An operand that lies within the code is read from its bytes. -/
lemma readOperand_of_le (h : d.position + w.bytes ≤ d.code.size) :
    d.readOperand w =
      (.ok (Int32.ofNat (ofLittleEndian ((d.code.toList.drop d.position).take w.bytes))),
        d.advance w.bytes) := by
  rw [readOperand, readNumber, Code.operandAt_eq_ok h]
  rfl

/-- An operand that reaches past the end is not read. -/
lemma readOperand_of_lt (h : d.code.size < d.position + w.bytes) :
    d.readOperand w = (.error (.pastEnd (max d.position d.code.size)), d) := by
  rw [readOperand, readNumber, Code.operandAt, if_neg (by omega), Code.missing]
  rfl

end Decoder

/-! ### Reads in three moves -/

/-- The bytes from a position on, if it is not past the end. -/
def Code.rest? (c : Code) (p : ℕ) : Option (List UInt8) :=
  if p ≤ c.size then some (c.toList.drop p) else none

/-- The first bytes, if there are so many. -/
def firstChunk? (n : ℕ) (bytes : List UInt8) : Option (List UInt8) :=
  if n ≤ bytes.length then some (bytes.take n) else none

/-- The sum of two positions of 64 bits, or the last position if the sum lies behind it. -/
def saturatingAdd (p n : ℕ) : ℕ :=
  min (p + n) (2 ^ 64 - 1)

namespace Decoder

variable {d d' : Decoder} {w : Width}

/-- Takes the next bytes, or none of them and stays. -/
def take (d : Decoder) (n : ℕ) : Except DecodeError (List UInt8) × Decoder :=
  match (d.code.rest? d.position).bind (firstChunk? n) with
  | some bytes => (.ok bytes, { d with position := saturatingAdd d.position n })
  | none => (.error (.pastEnd (max d.position d.code.size)), d)

/-- **No sum saturates**: bytes are taken if the sum of the position and their number is no
more than the size of the code, and then the position is that sum. -/
lemma take_eq (h : d.code.size < 2 ^ 64) (n : ℕ) :
    d.take n =
      if d.position + n ≤ d.code.size then
        (.ok ((d.code.toList.drop d.position).take n), d.advance n)
      else (.error (.pastEnd (max d.position d.code.size)), d) := by
  by_cases hfit : d.position + n ≤ d.code.size
  · have hrest : d.code.rest? d.position = some (d.code.toList.drop d.position) :=
      if_pos (by omega)
    have hlength : n ≤ (d.code.toList.drop d.position).length := by
      rw [List.length_drop, Code.length_toList]
      omega
    have hsum : saturatingAdd d.position n = d.position + n := min_eq_left (by omega)
    rw [take, hrest, Option.bind_some, firstChunk?, if_pos hlength, if_pos hfit, hsum]
    rfl
  · have hnone : (d.code.rest? d.position).bind (firstChunk? n) = none := by
      rw [Code.rest?]
      split_ifs with hp
      · refine if_neg ?_
        rw [List.length_drop, Code.length_toList]
        omega
      · rfl
    rw [take, hnone, if_neg hfit]

/-- The byte that is read as an opcode is the one that is taken. -/
lemma readOpcode_eq_take (h : d.code.size < 2 ^ 64) :
    d.readOpcode = convert (·.headD 0) (d.take 1) := by
  rw [take_eq h]
  by_cases hfit : d.position + 1 ≤ d.code.size
  · have hlt : d.position < d.code.toList.length := by rwa [Code.length_toList]
    rw [readOpcode_of_le (List.getElem?_eq_getElem hlt), if_pos hfit,
      List.drop_eq_getElem_cons hlt]
    rfl
  · rw [readOpcode_of_lt (by omega), if_neg hfit]
    rfl

/-- The word that is read as an operand stands in the bytes that are taken. -/
lemma readOperand_eq_take (h : d.code.size < 2 ^ 64) (w : Width) :
    d.readOperand w =
      convert (fun bytes => Int32.ofNat (ofLittleEndian bytes)) (d.take w.bytes) := by
  rw [take_eq h]
  by_cases hfit : d.position + w.bytes ≤ d.code.size
  · rw [readOperand_of_le hfit, if_pos hfit]
    rfl
  · rw [readOperand_of_lt (by omega), if_neg hfit]
    rfl

end Decoder

/-! ### Operands as words -/

/-- The number that an operand of a width stands for, given its bytes as an unsigned one:
four bytes are in two's complement, and fewer have no sign. -/
def Width.value (w : Width) (n : ℕ) : ℤ :=
  if w = .four ∧ 2 ^ 31 ≤ n then n - 2 ^ 32 else n

/-- The word of an operand is the number that the operand stands for. -/
lemma toInt_ofNat_eq_value {w : Width} {n : ℕ} (h : n < 256 ^ w.bytes) :
    (Int32.ofNat n).toInt = w.value n := by
  have hlt : n < 2 ^ 32 := h.trans_le (by cases w <;> decide)
  have hmod : (n : ℤ) % (Int32.size : ℤ) = n :=
    Int.emod_eq_of_lt (by omega) (by exact_mod_cast hlt)
  rw [Int32.toInt_ofNat', Int.bmod_def, hmod, Width.value, Int32.size]
  cases w with
  | one | two =>
      have hsmall : n < 2 ^ 16 := h.trans_le (by decide)
      rw [if_pos (by omega), if_neg (by simp)]
  | four =>
      by_cases hsign : 2 ^ 31 ≤ n
      · rw [if_neg (by omega), if_pos ⟨rfl, hsign⟩]
        rfl
      · rw [if_pos (by omega), if_neg (fun hboth => hsign hboth.2)]

/-- The instruction with a word as its operand, cut to the type that the operand has. -/
def Instruction.ofWord (op : Opcode) (v : Word) : Instruction :=
  match op with
  | .nop => nop
  | .push => push v
  | .pop => pop
  | .load => load v.toUInt32.toUInt8
  | .store => store v.toUInt32.toUInt8
  | .jmp => jmp v.toUInt32.toUInt16
  | .jz => jz v.toUInt32.toUInt16
  | .jnz => jnz v.toUInt32.toUInt16
  | .add => add
  | .sub => sub
  | .mul => mul
  | .div => div
  | .print => print
  | .stop => stop

/-- A number is cut to the type of an operand alike, as a word or at once. -/
lemma Instruction.ofWord_ofNat (op : Opcode) (n : ℕ) :
    ofWord op (Int32.ofNat n) = ofOperand op n := by
  cases op <;> simp [ofWord, ofOperand]

namespace Decoder

variable {d d' : Decoder} {w : Width}

/-- Bytes that are read as an operand stand for no more than its width can hold. -/
lemma ofLittleEndian_operand_lt (h : d.position + w.bytes ≤ d.code.size) :
    ofLittleEndian ((d.code.toList.drop d.position).take w.bytes) < 256 ^ w.bytes := by
  have hlt := ofLittleEndian_lt ((d.code.toList.drop d.position).take w.bytes)
  rwa [List.length_take, List.length_drop, Code.length_toList, min_eq_left (by omega)] at hlt

/-- A word that is read with the width of an opcode loses no bit as its operand. -/
lemma operand_ofWord {op : Opcode} {v : Word} (hw : op.width? = some w)
    (hread : d.readOperand w = (.ok v, d')) :
    (Instruction.ofWord op v).operand = v.toUInt32.toNat := by
  have hbytes : op.operandBytes = w.bytes := by
    rw [Opcode.operandBytes, hw]
    rfl
  by_cases hfit : d.position + w.bytes ≤ d.code.size
  · have hlt := ofLittleEndian_operand_lt hfit
    have hword : _ < 2 ^ 32 := hlt.trans_le (by cases w <;> decide)
    rw [readOperand_of_le hfit] at hread
    cases hread
    rw [Instruction.ofWord_ofNat, Instruction.operand_ofOperand (by rwa [hbytes]),
      Int32.toUInt32_ofNat', UInt32.toNat_ofNat', Nat.mod_eq_of_lt hword]
  · rw [readOperand_of_lt (by omega)] at hread
    cases hread

/-- Reads what follows an opcode byte with the read of operands for its width. -/
def readByWidth (d : Decoder) (op : Opcode) : Except DecodeError Instruction × Decoder :=
  match op.width? with
  | none => (.ok (.ofWord op 0), d)
  | some w => convert (.ofWord op) (d.readOperand w)

/-- Reads an instruction: the opcode byte, and what the width of the opcode asks for. -/
def decodeByWidth (d : Decoder) : Except DecodeError Instruction × Decoder :=
  match d.readOpcode with
  | (.error e, d) => (.error e, d)
  | (.ok byte, next) =>
    match Opcode.ofByte? byte with
    | none => (.error (.unknownOpcode d.position byte), next)
    | some op => next.readByWidth op

/-- Converting what has been converted. -/
lemma convert_convert {α β γ : Type} (f : β → γ) (g : α → β)
    (read : Except DecodeError α × Decoder) :
    convert f (convert g read) = convert (fun a => f (g a)) read := by
  obtain ⟨result, d⟩ := read
  cases result <;> rfl

/-- What follows an opcode byte is the same as with the read of its own type. -/
lemma readByWidth_eq_readRest (d : Decoder) (op : Opcode) : d.readByWidth op = d.readRest op := by
  -- a word is the number that has been read, and that is cut to the operand's type
  have hcut (w : Width) : convert (Instruction.ofWord op) (d.readOperand w)
      = convert (Instruction.ofOperand op) (d.readNumber w.bytes) := by
    rw [readOperand, convert_convert]
    simp only [Instruction.ofWord_ofNat]
  cases op with
  | nop | pop | add | sub | mul | div | print | stop => rfl
  | push => rfl
  | load | store =>
      refine (hcut .one).trans ?_
      rw [readRest, readRegister, convert_convert]
      rfl
  | jmp | jz | jnz =>
      refine (hcut .two).trans ?_
      rw [readRest, readTarget, convert_convert]
      rfl

/-- **Two readers**: decoding with the reads of the operands' own types is decoding with
the one read that goes by the width. -/
theorem decode_eq_decodeByWidth (d : Decoder) : d.decode = d.decodeByWidth := by
  rw [decode, decodeByWidth]
  rcases d.readOpcode with ⟨_ | byte, next⟩
  · rfl
  · dsimp only
    cases Opcode.ofByte? byte with
    | none => rfl
    | some op => exact (readByWidth_eq_readRest next op).symm

/-! ### Queries -/

/-- What a decoder is asked for. -/
inductive Query where
  /-- A byte, whether or not it is an opcode. -/
  | opcode
  /-- An operand of a width. -/
  | operand (w : Width)
  /-- A whole instruction. -/
  | instruction

/-- What a query is answered with. -/
inductive Reading where
  | opcode (byte : UInt8)
  | operand (v : Word)
  | instruction (i : Instruction)

/-- Serves a query. -/
def ask (d : Decoder) : Query → Except DecodeError Reading × Decoder
  | .opcode => convert .opcode d.readOpcode
  | .operand w => convert .operand (d.readOperand w)
  | .instruction => convert .instruction d.decode

/-- Serves queries in order. -/
def askAll (d : Decoder) : List Query → List (Except DecodeError Reading) × Decoder
  | [] => ([], d)
  | query :: rest =>
    ((d.ask query).1 :: ((d.ask query).2.askAll rest).1, ((d.ask query).2.askAll rest).2)

/-- A decoder that has moved on in the same code: not back, and not past the end if it
was not there before. -/
structure Onward (d d' : Decoder) : Prop where
  code_eq : d'.code = d.code
  position_le : d.position ≤ d'.position
  le_size : d.position ≤ d.code.size → d'.position ≤ d.code.size

lemma Onward.refl (d : Decoder) : Onward d d :=
  ⟨rfl, le_refl _, id⟩

lemma Onward.trans {d₁ d₂ d₃ : Decoder} (h : Onward d₁ d₂) (h' : Onward d₂ d₃) :
    Onward d₁ d₃ where
  code_eq := h'.code_eq.trans h.code_eq
  position_le := h.position_le.trans h'.position_le
  le_size hle := h.code_eq ▸ h'.le_size (h.code_eq ▸ h.le_size hle)

/-- A decoder that moves over bytes of the code moves on. -/
lemma onward_advance {n : ℕ} (h : d.position + n ≤ d.code.size) : Onward d (d.advance n) :=
  ⟨rfl, Nat.le_add_right _ _, fun _ => h⟩

/-- Converting an answer does not move the decoder. -/
@[simp] lemma convert_snd {α β : Type} (f : α → β) (read : Except DecodeError α × Decoder) :
    (convert f read).2 = read.2 := by
  obtain ⟨result, d⟩ := read
  cases result <;> rfl

/-- Reading an opcode byte moves a decoder on. -/
lemma onward_readOpcode (d : Decoder) : Onward d d.readOpcode.2 := by
  by_cases hfit : d.position + 1 ≤ d.code.size
  · have hlt : d.position < d.code.toList.length := by rwa [Code.length_toList]
    rw [readOpcode_of_le (List.getElem?_eq_getElem hlt)]
    exact onward_advance hfit
  · rw [readOpcode_of_lt (by omega)]
    exact .refl d

/-- Reading an operand moves a decoder on. -/
lemma onward_readOperand (d : Decoder) (w : Width) : Onward d (d.readOperand w).2 := by
  by_cases hfit : d.position + w.bytes ≤ d.code.size
  · rw [readOperand_of_le hfit]
    exact onward_advance hfit
  · rw [readOperand_of_lt (by omega)]
    exact .refl d

/-- Reading an instruction moves a decoder on: over its opcode byte and over its operand. -/
lemma onward_decode (d : Decoder) : Onward d d.decode.2 := by
  have hopcode := onward_readOpcode d
  rw [decode_eq_decodeByWidth, decodeByWidth]
  generalize d.readOpcode = read at hopcode
  obtain ⟨_ | byte, next⟩ := read
  · exact hopcode
  · dsimp only
    cases Opcode.ofByte? byte with
    | none => exact hopcode
    | some op =>
        refine hopcode.trans ?_
        dsimp only [readByWidth]
        cases op.width? with
        | none => exact .refl next
        | some w => simpa using onward_readOperand next w

/-- A query moves a decoder on. -/
lemma onward_ask (d : Decoder) (query : Query) : Onward d (d.ask query).2 := by
  cases query with
  | opcode => simpa [ask] using onward_readOpcode d
  | operand w => simpa [ask] using onward_readOperand d w
  | instruction => simpa [ask] using onward_decode d

/-- **Any queries** move a decoder on. -/
theorem onward_askAll (d : Decoder) (queries : List Query) :
    Onward d (d.askAll queries).2 := by
  induction queries generalizing d with
  | nil => exact .refl d
  | cons query rest ih => exact (onward_ask d query).trans (ih _)

/-- At the end and past it every query fails, names the position and stays there. -/
lemma ask_of_size_le (h : d.code.size ≤ d.position) (query : Query) :
    d.ask query = (.error (.pastEnd d.position), d) := by
  cases query with
  | opcode =>
      rw [ask, readOpcode_of_lt (by omega), max_eq_left h]
      rfl
  | operand w =>
      have hpos : 0 < w.bytes := by cases w <;> decide
      rw [ask, readOperand_of_lt (by omega), max_eq_left h]
      rfl
  | instruction =>
      rw [ask, decode_of_size_le h]
      rfl

/-- At the end and past it any queries do. -/
lemma askAll_of_size_le (h : d.code.size ≤ d.position) (queries : List Query) :
    d.askAll queries
      = (List.replicate queries.length (.error (.pastEnd d.position)), d) := by
  induction queries with
  | nil => rfl
  | cons query rest ih =>
      rw [askAll, ask_of_size_le h]
      dsimp only
      rw [ih, List.length_cons, List.replicate_succ]

/-! ### Reads are exact -/

/-- What is read of a byte string where a decoder stands, the numbers of its bytes being the
digits of the number that they stand for. -/
structure ReadsExactly (b : Bytes) (d : Decoder) : Prop where
  opcode_of_le (h : d.position + 1 ≤ b.size) : d.readOpcode = (.ok b[d.position], d.advance 1)
  opcode_of_lt (h : b.size < d.position + 1) :
    d.readOpcode = (.error (.pastEnd (max d.position b.size)), d)
  operand_of_le (w : Width) (h : d.position + w.bytes ≤ b.size) :
    ∃ v : Word, d.readOperand w = (.ok v, d.advance w.bytes) ∧
      v.toInt = w.value (Nat.ofDigits 256
        ((b.extract d.position (d.position + w.bytes)).toList.map UInt8.toNat))
  operand_of_lt (w : Width) (h : b.size < d.position + w.bytes) :
    d.readOperand w = (.error (.pastEnd (max d.position b.size)), d)
  /-- In three moves, the last of which may saturate, it is the same. -/
  opcode_eq_take : d.readOpcode = convert (·.headD 0) (d.take 1)
  operand_eq_take (w : Width) :
    d.readOperand w = convert (fun bytes => Int32.ofNat (ofLittleEndian bytes)) (d.take w.bytes)
  /-- Decoding comes to the same as reading the operand by its width. -/
  decode_eq : d.decode = d.decodeByWidth
  /-- No bit of a word is lost when it becomes an operand. -/
  operand_eq (op : Opcode) (w : Width) (v : Word) (d' : Decoder) (hw : op.width? = some w)
    (hread : d.readOperand w = (.ok v, d')) : (Instruction.ofWord op v).operand = v.toUInt32.toNat

/-- Reads of a byte string that is not as long as positions go are exact. -/
lemma readsExactly_of_lt {b : Bytes} (hb : b.size < 2 ^ 64) (hcode : d.code = .ofBytes b) :
    ReadsExactly b d := by
  obtain ⟨code, q⟩ := d
  dsimp only at hcode
  subst hcode
  constructor
  case opcode_of_le =>
    intro h
    refine readOpcode_of_le ?_
    rw [Code.toList_ofBytes, Array.getElem?_toList]
    exact Array.getElem?_eq_getElem h
  case opcode_of_lt => exact readOpcode_of_lt (d := ⟨.ofBytes b, q⟩)
  case operand_of_le =>
    intro w h
    have hchunk : (b.extract q (q + w.bytes)).toList = (b.toList.drop q).take w.bytes := by
      rw [Array.toList_extract, List.extract_eq_take_drop, Nat.add_sub_cancel_left]
    refine ⟨_, readOperand_of_le h, ?_⟩
    rw [toInt_ofNat_eq_value (ofLittleEndian_operand_lt h),
      Reference.ofDigits_eq_ofLittleEndian, hchunk, Code.toList_ofBytes]
  case operand_of_lt => exact fun w => readOperand_of_lt (d := ⟨.ofBytes b, q⟩)
  case opcode_eq_take => exact readOpcode_eq_take hb
  case operand_eq_take => exact readOperand_eq_take hb
  case decode_eq => exact decode_eq_decodeByWidth _
  case operand_eq => exact fun op w v d' => operand_ofWord

/-- **Reads are exact**: whatever a decoder has been asked for before, from whatever position
of 64 bits, on a byte string of less than `2 ^ 63` bytes. It reads at the position where it
stands as `ReadsExactly` says. Its position is again one of 64 bits, has not gone back and
does not with the next query, and stays within the string if it was there. From the end
on, and past it, every query fails, names the position and leaves it. -/
theorem reads_are_exact {b : Bytes} (hb : b.size < 2 ^ 63) {p : ℕ} (hp : p < 2 ^ 64)
    (queries : List Query) :
    let start : Decoder := ⟨.ofBytes b, p⟩
    let d := (start.askAll queries).2
    ReadsExactly b d ∧ d.code = .ofBytes b ∧ d.position < 2 ^ 64 ∧ p ≤ d.position ∧
      (∀ query, d.position ≤ (d.ask query).2.position) ∧
      (p ≤ b.size → d.position ≤ b.size) ∧
      (b.size ≤ p → d = start ∧
        (start.askAll queries).1 = List.replicate queries.length (.error (.pastEnd p))) := by
  intro start d
  have honward : Onward start d := onward_askAll start queries
  have hpast (h : b.size ≤ p) : start.askAll queries
      = (List.replicate queries.length (.error (.pastEnd p)), start) :=
    askAll_of_size_le h queries
  refine ⟨readsExactly_of_lt (by omega) honward.code_eq, honward.code_eq, ?_,
    honward.position_le, fun query => (onward_ask d query).position_le, honward.le_size,
    fun h => ⟨congrArg Prod.snd (hpast h), congrArg Prod.fst (hpast h)⟩⟩
  rcases le_total p b.size with hle | hge
  · exact (honward.le_size hle).trans_lt (by change b.size < 2 ^ 64; omega)
  · have hstay : d = start := congrArg Prod.snd (hpast hge)
    rw [hstay]
    exact hp

/-- Behind the opcode byte of `PUSH -2` the operand is read as `-2`, and a byte of it as
`254`; behind it there is half a target. From the last position of all nothing is read. -/
theorem reads_are_exact_to_the_end :
    let b : Bytes := #[1, 254, 255, 255, 255, 5, 1]
    let d : Decoder := (askAll ⟨.ofBytes b, 0⟩ [.opcode]).2
    let last : Decoder := (askAll ⟨.ofBytes b, 1⟩ [.operand .four, .opcode]).2
    (∃ v : Word, d.readOperand .four = (.ok v, ⟨.ofBytes b, 5⟩) ∧ v.toInt = -2) ∧
      (∃ v : Word, d.readOperand .one = (.ok v, ⟨.ofBytes b, 2⟩) ∧ v.toInt = 254) ∧
      last.readOperand .two = (.error (.pastEnd 7), ⟨.ofBytes b, 6⟩) ∧
      askAll ⟨.ofBytes b, 2 ^ 64 - 1⟩ [.opcode, .operand .one]
        = ([.error (.pastEnd (2 ^ 64 - 1)), .error (.pastEnd (2 ^ 64 - 1))],
          ⟨.ofBytes b, 2 ^ 64 - 1⟩) := by
  intro b d last
  have hb : b.size < 2 ^ 63 := by decide
  obtain ⟨hreads, -⟩ := reads_are_exact hb (show 0 < 2 ^ 64 by decide) [.opcode]
  obtain ⟨hend, -⟩ := reads_are_exact hb (show 1 < 2 ^ 64 by decide) [.operand .four, .opcode]
  obtain ⟨-, -, -, -, -, -, hpast⟩ := reads_are_exact hb (show 2 ^ 64 - 1 < 2 ^ 64 by decide)
    [.opcode, .operand .one]
  obtain ⟨hstay, hfail⟩ := hpast (by decide)
  obtain ⟨v, hv, hvalue⟩ := hreads.operand_of_le .four (by decide)
  obtain ⟨v', hv', hvalue'⟩ := hreads.operand_of_le .one (by decide)
  exact ⟨⟨v, hv, hvalue.trans (by decide +kernel)⟩, ⟨v', hv', hvalue'.trans (by decide +kernel)⟩,
    hend.operand_of_lt .two (by decide), Prod.ext hfail hstay⟩

end Decoder

end Bytecode
