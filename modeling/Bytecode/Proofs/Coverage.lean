/-
The script of a listed program and the memory of the machine that the program
is loaded into.

* `JumpClosed`: a program that is listed without an error, and whose jumps
  lead to listed offsets or behind the program;
* `Script.Covers`: the lines of a script are what a machine finds in its
  memory, one after the other up to the limit, and no jump misses them;
* `Script.covers_of_load` (**a listing and the zeros behind it**): the script
  of a jump-closed program covers the machine that the program is loaded into.
-/
import Mathlib
import Bytecode.Proofs.Script
import Bytecode.Proofs.Simulation
import Bytecode.Proofs.Tiling

namespace Bytecode

/-- The target of a jump. -/
def Instruction.target? : Instruction → Option UInt16
  | .jmp target | .jz target | .jnz target => some target
  | _ => none

/-- A program that is listed without an error. Each of its jumps leads to a
listed offset, or behind the program and below the limit of the memory. -/
structure JumpClosed (limits : Limits) (program : Bytes) (entries : List Entry) : Prop where
  entries_eq : Listing.entries program = entries.map .ok
  target_listed : ∀ entry ∈ entries, ∀ target, entry.instruction.target? = some target →
    (∃ destination ∈ entries, destination.offset = target.toNat) ∨
      program.size ≤ target.toNat ∧ target.toNat < limits.memorySize

namespace Script

variable {c : Script} {m : Machine}

/-! ### Lines and offsets -/

/-- The offset of a line that there is. -/
lemma place_of_getElem? {line : ℕ} {entry : Entry} (h : c.lines[line]? = some entry) :
    c.place line = entry.offset := by
  rw [place, h]
  rfl

/-- Behind the last line lies the end. -/
lemma place_of_getElem?_eq_none {line : ℕ} (h : c.lines[line]? = none) :
    c.place line = c.size := by
  rw [place, h]
  rfl

/-- The line that is found at an offset is a line of this offset. -/
lemma place_of_lineAt? {offset line : ℕ} (h : c.lineAt? offset = some line) :
    c.place line = offset ∧ line < c.lines.length := by
  obtain ⟨hlt, hoffset, -⟩ := List.findIdx?_eq_some_iff_getElem.mp h
  rw [place_of_getElem? (List.getElem?_eq_getElem hlt)]
  exact ⟨of_decide_eq_true hoffset, hlt⟩

/-- At the offset of a line a line is found. -/
lemma exists_lineAt? {entry : Entry} (h : entry ∈ c.lines) :
    ∃ line, c.lineAt? entry.offset = some line := by
  rw [← Option.isSome_iff_exists, lineAt?, List.findIdx?_isSome]
  exact List.any_eq_true.mpr ⟨entry, h, decide_eq_true rfl⟩

/-- Lines that are laid out stand behind the instructions before them. -/
lemma place_of_layout {instructions : List Instruction}
    (hlines : c.lines = Entry.layout 0 instructions)
    (hsize : c.size = (instructions.flatMap Instruction.encode).length) (line : ℕ) :
    c.place line = ((instructions.take line).flatMap Instruction.encode).length := by
  rw [place, hlines, Entry.getElem?_layout, Nat.zero_add]
  cases hline : instructions[line]? with
  | none =>
      rw [List.take_of_length_le (List.getElem?_eq_none_iff.mp hline), ← hsize]
      rfl
  | some i => rfl

/-! ### The script of a memory -/

/-- The lines of a script are what a machine finds in its memory, one after
the other up to the limit, and every jump has a line to lead to. -/
structure Covers (c : Script) (m : Machine) : Prop where
  size_eq : c.size = m.limits.memorySize
  stackSize_eq : c.stackSize = m.limits.stackSize
  registerCount_eq : c.registerCount = m.limits.registerCount
  place_zero : c.place 0 = 0
  place_succ : ∀ line entry, c.lines[line]? = some entry →
    c.place (line + 1) = entry.offset + entry.instruction.size
  decodeAt_eq : ∀ entry ∈ c.lines, m.code.decodeAt entry.offset = .ok entry.instruction
  target_listed : ∀ entry ∈ c.lines, ∀ target, entry.instruction.target? = some target →
    ∃ line, c.lineAt? target.toNat = some line

/-- A script covers every machine with the same memory. -/
lemma Covers.of_sameStorage {m' : Machine} (hc : c.Covers m) (h : Machine.SameStorage m m') :
    c.Covers m' := by
  have hcode : m'.code = m.code := by rw [Machine.code, Machine.code, h.memory_eq, h.limits_eq]
  refine { hc with size_eq := ?_, stackSize_eq := ?_, registerCount_eq := ?_, decodeAt_eq := ?_ }
  · rw [h.limits_eq]
    exact hc.size_eq
  · rw [h.limits_eq]
    exact hc.stackSize_eq
  · rw [h.limits_eq]
    exact hc.registerCount_eq
  · rw [hcode]
    exact hc.decodeAt_eq

/-- Lines lie below the limit of the memory. -/
lemma Covers.add_size_le (hc : c.Covers m) (h : m.WellFormed) {entry : Entry}
    (hentry : entry ∈ c.lines) :
    entry.offset + entry.instruction.size ≤ m.limits.memorySize := by
  rw [← Machine.size_code h.memorySize_le]
  exact Code.add_size_le_of_decodeAt (hc.decodeAt_eq entry hentry)

/-- A line that is found lies below the limit of the memory. -/
lemma Covers.lt_of_lineAt? (hc : c.Covers m) (h : m.WellFormed) {offset line : ℕ}
    (hline : c.lineAt? offset = some line) : offset < m.limits.memorySize := by
  obtain ⟨hplace, hlt⟩ := place_of_lineAt? hline
  rw [place_of_getElem? (List.getElem?_eq_getElem hlt)] at hplace
  have hend := hc.add_size_le h (List.getElem_mem hlt)
  have hpos : 0 < c.lines[line].instruction.size := Opcode.size_pos _
  omega

/-- Zeros are encoded `NOP`s. -/
lemma flatMap_encode_replicate_nop (k : ℕ) :
    (List.replicate k Instruction.nop).flatMap Instruction.encode = List.replicate k 0 := by
  induction k with
  | zero => rfl
  | succ k ih =>
      rw [List.replicate_succ, List.flatMap_cons, ih, List.replicate_succ]
      rfl

/-- The lines of the zeros from an offset on. -/
lemma mem_layout_replicate_nop_iff {start k : ℕ} {entry : Entry} :
    entry ∈ Entry.layout start (List.replicate k .nop) ↔
      entry.instruction = .nop ∧ start ≤ entry.offset ∧ entry.offset < start + k := by
  induction k generalizing start with
  | zero => simp [Entry.layout]
  | succ k ih =>
      have hsize : Instruction.nop.size = 1 := rfl
      rw [List.replicate_succ, Entry.layout, List.mem_cons, ih, hsize]
      constructor
      · rintro (rfl | ⟨hnop, hle, hlt⟩)
        · exact ⟨rfl, le_rfl, by dsimp only; omega⟩
        · exact ⟨hnop, by omega, by omega⟩
      · rintro ⟨hnop, hle, hlt⟩
        rcases Nat.eq_or_lt_of_le hle with heq | hgt
        · left
          rw [heq, ← hnop]
        · exact .inr ⟨hnop, by omega, by omega⟩

/-- A program that is listed without an error is the concatenation of what is
listed. -/
lemma exists_layout_of_entries_eq {program : Bytes} {entries : List Entry}
    (h : Listing.entries program = entries.map .ok) :
    ∃ instructions : List Instruction, entries = Entry.layout 0 instructions ∧
      program.toList = instructions.flatMap Instruction.encode := by
  obtain ⟨instructions, tail, hentries, hencoded, -, htail, -⟩ :=
    Listing.exists_layout_append_tail (Nat.zero_le (Code.ofBytes program).size)
  simp only [Code.toList_ofBytes, List.drop_zero, Nat.zero_add] at hencoded htail
  change Listing.entries program = _ at hentries
  rw [h] at hentries
  -- an error at the end would be listed
  have hnoerror : ∀ e, .error e ∉ tail := by
    intro e he
    have hmem : .error e ∈ entries.map Except.ok := by
      rw [hentries]
      exact List.mem_append_right _ he
    obtain ⟨entry, -, hok⟩ := List.mem_map.mp hmem
    cases hok
  cases htail with
  | unknown _ _ => exact absurd (List.mem_singleton.mpr rfl) (hnoerror _)
  | truncated _ _ => exact absurd (List.mem_singleton.mpr rfl) (hnoerror _)
  | whole hend =>
      rw [List.append_nil] at hentries
      refine ⟨instructions, ?_, (hencoded.eq_of_length hend).symm⟩
      exact List.map_injective_iff.mpr (fun _ _ hok => Except.ok.inj hok) hentries

/-- What stands at the offset of an instruction is its encoding, and those of
the instructions behind it. -/
lemma drop_flatMap_encode {instructions : List Instruction} {line : ℕ} {i : Instruction}
    (h : instructions[line]? = some i) :
    (instructions.flatMap Instruction.encode).drop
        ((instructions.take line).flatMap Instruction.encode).length
      = i.encode ++ (instructions.drop (line + 1)).flatMap Instruction.encode := by
  obtain ⟨hlt, hget⟩ := List.getElem?_eq_some_iff.mp h
  have hsplit : instructions.flatMap Instruction.encode
      = (instructions.take line).flatMap Instruction.encode
        ++ (i.encode ++ (instructions.drop (line + 1)).flatMap Instruction.encode) := by
    rw [← List.flatMap_cons, ← hget, ← List.drop_eq_getElem_cons hlt, ← List.flatMap_append,
      List.take_append_drop]
  rw [hsplit, List.drop_left]

/-- A script that is laid out as the bytes of a memory covers it, if no jump
misses its lines. -/
lemma Covers.of_layout {instructions : List Instruction}
    (hlines : c.lines = Entry.layout 0 instructions)
    (hcode : m.code.toList = instructions.flatMap Instruction.encode)
    (hend : m.code.size = m.limits.memorySize) (hsize : c.size = m.limits.memorySize)
    (hstack : c.stackSize = m.limits.stackSize)
    (hregisters : c.registerCount = m.limits.registerCount)
    (htarget : ∀ entry ∈ c.lines, ∀ target, entry.instruction.target? = some target →
      ∃ line, c.lineAt? target.toNat = some line) : c.Covers m := by
  have hplace := place_of_layout hlines (by rw [hsize, ← hend, ← Code.length_toList, hcode])
  have hentry : ∀ line entry, c.lines[line]? = some entry →
      instructions[line]? = some entry.instruction ∧ entry.offset = c.place line := by
    intro line entry hline
    refine ⟨?_, (place_of_getElem? hline).symm⟩
    rw [hlines, Entry.getElem?_layout] at hline
    obtain ⟨i, hi, rfl⟩ := Option.map_eq_some_iff.mp hline
    exact hi
  refine ⟨hsize, hstack, hregisters, hplace 0, ?_, ?_, htarget⟩
  · intro line entry hline
    obtain ⟨hi, hoffset⟩ := hentry line entry hline
    rw [hplace, hoffset, hplace, List.take_add_one, hi, List.flatMap_append, List.length_append]
    simp
  · intro entry hmem
    obtain ⟨line, hline⟩ := List.mem_iff_getElem?.mp hmem
    obtain ⟨hi, hoffset⟩ := hentry line entry hline
    rw [Code.decodeAt_eq_ok_iff, hcode, hoffset, hplace, drop_flatMap_encode hi]
    exact List.prefix_append _ _

variable {capacity limits : Limits} {program : Bytes} {entries : List Entry}

/-- The lines of a program that fits are the listed ones, and the `NOP`s
behind the program and below the limit of the memory. -/
lemma mem_lines_iff (h : program.size ≤ limits.memorySize) {entry : Entry} :
    entry ∈ (Script.of limits program entries).lines ↔
      entry ∈ entries ∨ entry.instruction = .nop ∧ program.size ≤ entry.offset ∧
        entry.offset < limits.memorySize := by
  change entry ∈ entries ++ Entry.layout _ _ ↔ _
  rw [List.mem_append, mem_layout_replicate_nop_iff, Nat.add_sub_cancel' h]

/-- The jumps of a jump-closed program lead to lines of its script. -/
lemma exists_lineAt?_of_jumpClosed (hprogram : program.size ≤ limits.memorySize)
    (hclosed : JumpClosed limits program entries) {entry : Entry}
    (hentry : entry ∈ (Script.of limits program entries).lines) {target : UInt16}
    (htarget : entry.instruction.target? = some target) :
    ∃ line, (Script.of limits program entries).lineAt? target.toNat = some line := by
  rcases (mem_lines_iff hprogram).mp hentry with hlisted | ⟨hnop, -⟩
  · rcases hclosed.target_listed entry hlisted target htarget with
      ⟨destination, hmem, heq⟩ | ⟨hle, hlt⟩
    · rw [← heq]
      exact exists_lineAt? ((mem_lines_iff hprogram).mpr (.inl hmem))
    · -- the target lies among the zeros behind the program
      have hzero : (⟨target.toNat, .nop⟩ : Entry) ∈ (Script.of limits program entries).lines :=
        (mem_lines_iff hprogram).mpr (.inr ⟨rfl, hle, hlt⟩)
      exact exists_lineAt? hzero
  · rw [hnop] at htarget
    cases htarget

/-- **The script of a jump-closed program** covers the machine that the
program is loaded into. -/
lemma covers_of_load (hload : Machine.load capacity limits program = .ok m)
    (hclosed : JumpClosed limits program entries) :
    (Script.of limits program entries).Covers m := by
  have hend := Machine.size_code (Machine.WellFormed.of_load hload).memorySize_le
  obtain ⟨hfits, hprogram, rfl⟩ := Machine.load_eq_ok_iff.mp hload
  obtain ⟨instructions, rfl, hbytes⟩ := exists_layout_of_entries_eq hclosed.entries_eq
  -- the listing and the zeros are laid out as one list
  let all := instructions ++ List.replicate (limits.memorySize - program.size) .nop
  have hlines : (Script.of limits program (Entry.layout 0 instructions)).lines
      = Entry.layout 0 all := by
    rw [Entry.layout_append, ← hbytes, Array.length_toList, Nat.zero_add]
    rfl
  have hcode : (Machine.fresh capacity limits program).code.toList
      = all.flatMap Instruction.encode := by
    rw [List.flatMap_append, flatMap_encode_replicate_nop, ← hbytes]
    exact Reference.toList_code_fresh (hfits .memory) hprogram
  exact .of_layout hlines hcode hend rfl rfl rfl fun _ hentry _ htarget =>
    exists_lineAt?_of_jumpClosed hprogram hclosed hentry htarget

end Script

end Bytecode
