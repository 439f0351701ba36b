/-
Machines whose limits fit their storage, and whose stack and instruction
pointer keep to the limits.

* `Machine.WellFormed`: the representation invariant;
* `load_eq_ok_iff`: a program is loaded exactly if every limit fits its
  capacity and the program fits the memory, and what it is loaded into;
* `WellFormed.of_load` and `WellFormed.restart`: the invariant of a
  machine that has loaded a program, and of one that starts it again;
* `visibleRegisters_eq`, `program_eq`, `size_code`: on a well-formed
  machine the views of the storage are the parts that they are meant to
  be.
-/
import Mathlib
import Bytecode.Bytes.Lemmas
import Bytecode.Code.Lemmas
import Bytecode.Machine.Run

namespace Bytecode

/-- The front of an array that is long enough. -/
lemma front?_eq_some {α : Type} {a : Array α} {n : ℕ} (h : n ≤ a.size) :
    front? a n = some (a.extract 0 n) :=
  if_pos h

namespace Machine

/-- The limits fit the storage, the stack and the instruction pointer keep
to the limits, and the storage is zero where no program reaches it. -/
structure WellFormed (m : Machine) : Prop where
  one_le_stackSize : 1 ≤ m.limits.stackSize
  stackSize_le : m.limits.stackSize ≤ m.stackCapacity
  one_le_registerCount : 1 ≤ m.limits.registerCount
  registerCount_le : m.limits.registerCount ≤ m.registers.size
  one_le_memorySize : 1 ≤ m.limits.memorySize
  memorySize_le : m.limits.memorySize ≤ m.memory.size
  programSize_le : m.programSize ≤ m.limits.memorySize
  depth_le : m.depth ≤ m.limits.stackSize
  ip_le : m.ip ≤ m.limits.memorySize
  /-- The memory is zero behind the program. -/
  memory_eq_zero : ∀ p b, m.programSize ≤ p → m.memory[p]? = some b → b = 0
  /-- A register is zero if the limit or its index keeps it from every
  program. -/
  register_eq_zero : ∀ k v, min m.limits.registerCount 256 ≤ k → m.registers[k]? = some v → v = 0

/-! ### Loading -/

/-- The machine that a program is loaded into. -/
def fresh (capacity limits : Limits) (program : Bytes) : Machine where
  limits := limits
  memory := program ++ Array.replicate (capacity.memorySize - program.size) 0
  programSize := program.size
  stack := []
  stackCapacity := capacity.stackSize
  registers := Array.replicate capacity.registerCount 0
  ip := 0
  status := .ready

/-- A program written over zeros has zeros behind it. -/
lemma overwrite_zeros {n : ℕ} {program : Bytes} (h : program.size ≤ n) :
    Bytes.overwrite (Array.replicate n 0) 0 program.toList
      = program ++ Array.replicate (n - program.size) 0 := by
  apply Array.toList_inj.mp
  rw [Bytes.toList_overwrite _ (by simpa using h)]
  simp

/-- **What is loaded**: a program is loaded exactly if every limit fits its
capacity and the program fits the memory. -/
theorem load_eq_ok_iff {capacity limits : Limits} {program : Bytes} {m : Machine} :
    load capacity limits program = .ok m ↔
      (∀ r, Limits.Fits limits capacity r) ∧ program.size ≤ limits.memorySize ∧
        m = fresh capacity limits program := by
  rw [load]
  cases hc : limits.check capacity with
  | error e =>
      have hno : ¬ ∀ r, Limits.Fits limits capacity r := by
        rw [← Limits.check_eq_ok_iff, hc]
        simp
      simp [hno]
  | ok u =>
      have hfits : ∀ r, Limits.Fits limits capacity r := Limits.check_eq_ok_iff.mp hc
      have hcap : limits.memorySize ≤ capacity.memorySize := (hfits .memory).2
      by_cases hlarge : limits.memorySize < program.size
      · simp [hlarge]
      · have hfit : program.size ≤ capacity.memorySize := by omega
        have hwrite : Bytes.overwrite? (Array.replicate capacity.memorySize 0) 0 program.toList
            = some (program ++ Array.replicate (capacity.memorySize - program.size) 0) := by
          rw [Bytes.overwrite?, if_pos (by simpa using hfit), overwrite_zeros hfit]
        simp only [hlarge, if_false, hwrite, Except.ok.injEq]
        exact ⟨fun h => ⟨hfits, by omega, h.symm⟩, fun h => h.2.2.symm⟩

/-- A machine that has just loaded a program is well-formed. -/
theorem WellFormed.of_load {capacity limits : Limits} {program : Bytes} {m : Machine}
    (h : load capacity limits program = .ok m) : m.WellFormed := by
  obtain ⟨hfits, hsize, rfl⟩ := load_eq_ok_iff.mp h
  obtain ⟨hstack, hstack'⟩ := hfits .stack
  obtain ⟨hregisters, hregisters'⟩ := hfits .registers
  obtain ⟨hmemory, hmemory'⟩ := hfits .memory
  simp only [Limits.get] at hstack hstack' hregisters hregisters' hmemory hmemory'
  constructor
  case memory_eq_zero =>
    intro p b hp hb
    rw [fresh, Array.getElem?_append_right hp] at hb
    exact (Array.mem_replicate.mp (Array.mem_of_getElem? hb)).2
  case register_eq_zero =>
    intro k v _ hv
    exact (Array.mem_replicate.mp (Array.mem_of_getElem? hv)).2
  all_goals simp only [fresh, depth, List.length_nil, Array.size_append, Array.size_replicate]
  all_goals omega

/-- A well-formed machine stays so when it starts its program again. -/
lemma WellFormed.restart {m : Machine} (h : m.WellFormed) : m.restart.WellFormed :=
  { h with
    depth_le := Nat.zero_le _
    ip_le := Nat.zero_le _ }

/-! ### The views of the storage -/

variable {m : Machine}

/-- The registers in view are the first ones. -/
lemma visibleRegisters_eq (h : m.limits.registerCount ≤ m.registers.size) :
    m.visibleRegisters = m.registers.extract 0 m.limits.registerCount := by
  rw [visibleRegisters, front?_eq_some h, Option.getD_some]

/-- What is in view is what is in the storage. -/
lemma getElem?_visibleRegisters (h : m.limits.registerCount ≤ m.registers.size) {k : ℕ}
    (hk : k < m.limits.registerCount) : m.visibleRegisters[k]? = m.registers[k]? := by
  have hlt : k < m.registers.size := by omega
  rw [visibleRegisters_eq h, Array.getElem?_extract_of_lt (by omega)]
  simp [Array.getElem?_eq_getElem hlt]

/-- Registers in view are the same if they are so one by one, as far as the
limit goes. -/
lemma visibleRegisters_ext {m' : Machine} (h : m.limits.registerCount ≤ m.registers.size)
    (h' : m'.limits.registerCount ≤ m'.registers.size) (hlimits : m'.limits = m.limits)
    (heq : ∀ k < m.limits.registerCount, m'.visibleRegisters[k]? = m.visibleRegisters[k]?) :
    m'.visibleRegisters = m.visibleRegisters := by
  apply Array.ext_getElem?
  intro k
  by_cases hk : k < m.limits.registerCount
  · exact heq k hk
  · rw [visibleRegisters_eq h, visibleRegisters_eq h', hlimits,
      Array.getElem?_eq_none (by simp; omega), Array.getElem?_eq_none (by simp; omega)]

/-- The registers in view are zero when a program has just been loaded. -/
lemma visibleRegisters_of_load {capacity limits : Limits} {program : Bytes}
    (h : load capacity limits program = .ok m) {k : ℕ} (hk : k < limits.registerCount) :
    m.visibleRegisters[k]? = some 0 := by
  have hle := (WellFormed.of_load h).registerCount_le
  obtain ⟨hfits, -, rfl⟩ := load_eq_ok_iff.mp h
  have hlt : k < capacity.registerCount := lt_of_lt_of_le hk (hfits .registers).2
  rw [getElem?_visibleRegisters hle hk]
  simp [fresh, hlt]

/-- A register below the limit is the one in the storage. -/
lemma register?_of_lt (h : m.limits.registerCount ≤ m.registers.size) {r : UInt8}
    (hr : r.toNat < m.limits.registerCount) : m.register? r = m.registers[r.toNat]? :=
  getElem?_visibleRegisters h hr

/-- There is no register in view from the limit on. -/
lemma register?_of_le (h : m.limits.registerCount ≤ m.registers.size) {r : UInt8}
    (hr : m.limits.registerCount ≤ r.toNat) : m.register? r = none := by
  rw [register?, visibleRegisters_eq h, Array.getElem?_eq_none]
  rw [Array.size_extract]
  omega

/-- The program is the start of the memory. -/
lemma program_eq (h : m.programSize ≤ m.memory.size) :
    m.program = m.memory.extract 0 m.programSize := by
  rw [program, front?_eq_some h, Option.getD_some]

/-- The code of a machine ends at the limit of its memory. -/
lemma size_code (h : m.limits.memorySize ≤ m.memory.size) :
    m.code.size = m.limits.memorySize :=
  Nat.min_eq_left h

end Machine

end Bytecode
