/-
What a listing shows of instructions that stand one after the other.

* `Entry.layout`: the entries of instructions that are laid out from an
  offset on;
* `next_of_decodeAt`: an instruction at the position of a listing is its
  next entry;
* `entries_eq_layout` (**listing a concatenation**): a program that is the
  concatenation of encodings is listed as those instructions, and nothing
  else.
-/
import Mathlib
import Bytecode.Code.Lemmas
import Bytecode.Listing

namespace Bytecode

/-- The entries of instructions that are laid out from an offset on. -/
def Entry.layout : ℕ → List Instruction → List Entry
  | _, [] => []
  | offset, i :: rest => ⟨offset, i⟩ :: layout (offset + i.size) rest

/-- Instructions that are laid out take as many bytes as their encodings. -/
lemma Entry.sum_size_layout (offset : ℕ) (instructions : List Instruction) :
    ((Entry.layout offset instructions).map (·.instruction.size)).sum
      = (instructions.flatMap Instruction.encode).length := by
  induction instructions generalizing offset with
  | nil => rfl
  | cons i rest ih => simp [Entry.layout, ih]

/-- Instructions that follow others are laid out behind them. -/
lemma Entry.layout_append (offset : ℕ) (before after : List Instruction) :
    Entry.layout offset (before ++ after)
      = Entry.layout offset before
        ++ Entry.layout (offset + (before.flatMap Instruction.encode).length) after := by
  induction before generalizing offset with
  | nil => rfl
  | cons i rest ih =>
      rw [List.cons_append, Entry.layout, Entry.layout, ih, List.flatMap_cons, List.length_append,
        i.length_encode, Nat.add_assoc]
      rfl

/-- An entry of a layout stands behind the instructions before it. -/
lemma Entry.getElem?_layout (offset : ℕ) (instructions : List Instruction) (k : ℕ) :
    (Entry.layout offset instructions)[k]? = instructions[k]?.map fun i =>
      ⟨offset + ((instructions.take k).flatMap Instruction.encode).length, i⟩ := by
  induction instructions generalizing offset k with
  | nil => rfl
  | cons i rest ih =>
      cases k with
      | zero => rfl
      | succ k =>
          rw [Entry.layout, List.getElem?_cons_succ, ih, List.getElem?_cons_succ,
            List.take_succ_cons, List.flatMap_cons, List.length_append, i.length_encode,
            Nat.add_assoc]

/-- A layout shows the instructions that are laid out. -/
@[simp] lemma Entry.map_instruction_layout (offset : ℕ) (instructions : List Instruction) :
    (Entry.layout offset instructions).map (·.instruction) = instructions := by
  induction instructions generalizing offset with
  | nil => rfl
  | cons i rest ih => simp [Entry.layout, ih]

namespace Listing

variable {c : Code} {p : ℕ}

/-- An instruction at the position of a listing is its next entry. -/
lemma next_of_decodeAt {i : Instruction} (h : c.decodeAt p = .ok i) :
    next ⟨⟨c, p⟩, false⟩ = (some (.ok ⟨p, i⟩), ⟨⟨c, p + i.size⟩, false⟩) := by
  have hend := Code.add_size_le_of_decodeAt h
  have hpos := i.opcode.size_pos
  have hfst := Decoder.decode_fst ⟨c, p⟩
  have hcode := Decoder.code_decode ⟨c, p⟩
  rw [next, if_neg]
  · cases hd : (Decoder.mk c p).decode with
    | mk result d =>
        rw [hd] at hfst hcode
        rw [h] at hfst
        dsimp only at hfst hcode
        subst hfst
        have hposition := Decoder.position_decode (d := ⟨c, p⟩) (i := i) (by rw [hd])
        rw [hd] at hposition
        obtain ⟨code, position⟩ := d
        dsimp only at hcode hposition
        subst hcode hposition
        rfl
  · rw [Instruction.size] at hend
    simp only [Bool.false_eq_true, false_or, Nat.not_le]
    omega

/-- A listing at the end of its code has no entry left. -/
lemma next_of_size_le (h : c.size ≤ p) (failed : Bool) :
    next ⟨⟨c, p⟩, failed⟩ = (none, ⟨⟨c, p⟩, failed⟩) :=
  if_pos (.inr h)

/-- A listing that has no entry left ends with those before. -/
lemma drainFrom_of_next_eq_none {l l' : Listing} (h : l.next = (none, l'))
    (before : List (Except DecodeError Entry)) : l.drainFrom before = (before.reverse, l') := by
  rw [drainFrom]
  split
  next l'' hnext =>
    rw [h] at hnext
    cases hnext
    rfl
  next entry l'' hnext =>
    rw [h] at hnext
    cases hnext

/-- A listing that has an entry left goes on behind it. -/
lemma drainFrom_of_next_eq_some {l l' : Listing} {entry : Except DecodeError Entry}
    (h : l.next = (some entry, l')) (before : List (Except DecodeError Entry)) :
    l.drainFrom before = l'.drainFrom (entry :: before) := by
  rw [drainFrom]
  split
  next l'' hnext =>
    rw [h] at hnext
    cases hnext
  next entry' l'' hnext =>
    rw [h] at hnext
    cases hnext
    rfl

/-- The entries that are left where encodings stand up to the end. -/
lemma drainFrom_eq_layout {instructions : List Instruction}
    (h : c.toList.drop p = instructions.flatMap Instruction.encode)
    (before : List (Except DecodeError Entry)) :
    (drainFrom ⟨⟨c, p⟩, false⟩ before).1
      = before.reverse ++ (Entry.layout p instructions).map .ok := by
  induction instructions generalizing p before with
  | nil =>
      have hsize : c.size ≤ p := by
        rw [← Code.length_toList]
        exact List.drop_eq_nil_iff.mp h
      rw [drainFrom_of_next_eq_none (next_of_size_le hsize false)]
      simp [Entry.layout]
  | cons i rest ih =>
      rw [List.flatMap_cons] at h
      have hdecode : c.decodeAt p = .ok i :=
        Code.decodeAt_eq_ok_iff.mpr ⟨_, h.symm⟩
      have hrest : c.toList.drop (p + i.size) = rest.flatMap Instruction.encode := by
        rw [← List.drop_drop, h, ← Instruction.length_encode, List.drop_left]
      rw [drainFrom_of_next_eq_some (next_of_decodeAt hdecode), ih hrest]
      simp [Entry.layout]

/-- **Listing a concatenation**: encodings that stand one after the other
are listed as their instructions, and nothing else is listed. -/
theorem entries_eq_layout {program : Bytes} {instructions : List Instruction}
    (h : program.toList = instructions.flatMap Instruction.encode) :
    entries program = (Entry.layout 0 instructions).map .ok := by
  have hlist : (Code.ofBytes program).toList.drop 0
      = instructions.flatMap Instruction.encode := by
    rw [List.drop_zero, Code.toList_ofBytes, h]
  exact drainFrom_eq_layout hlist []

end Listing

end Bytecode
