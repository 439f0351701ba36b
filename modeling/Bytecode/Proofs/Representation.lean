/-
The representation of a loaded program over the whole life of its
machine.

* `Machine.Represents`: the limits, the memory and the registers are what
  loading has made of them or what programs can reach;
* `Machine.NoFallback`: no piece of storage is asked for more than it has;
* `life_representation` (**the invariant over whole lives**): both hold
  after any steps and runs.
-/
import Mathlib
import Bytecode.Proofs.Life

namespace Bytecode.Machine

/-- The state of a machine in terms of the capacities, the limits and the
program that it was made with. -/
structure Represents (capacity limits : Limits) (program : Bytes) (m : Machine) : Prop where
  limits_eq : m.limits = limits
  /-- Every limit lies between one and its capacity. -/
  fits : ∀ r, 1 ≤ limits.get r ∧ limits.get r ≤ capacity.get r
  stackCapacity_eq : m.stackCapacity = capacity.stackSize
  size_registers : m.registers.size = capacity.registerCount
  size_memory : m.memory.size = capacity.memorySize
  programSize_eq : m.programSize = program.size
  size_program_le : program.size ≤ limits.memorySize
  depth_le : m.depth ≤ limits.stackSize
  ip_le : m.ip ≤ limits.memorySize
  /-- The program can be read back. -/
  program_eq : m.program = program
  memory_eq_zero : ∀ p b, program.size ≤ p → m.memory[p]? = some b → b = 0
  register_eq_zero : ∀ k v, min limits.registerCount 256 ≤ k → m.registers[k]? = some v → v = 0
  size_visibleRegisters : m.visibleRegisters.size = limits.registerCount
  register?_isSome_iff : ∀ r, (m.register? r).isSome ↔ r.toNat < limits.registerCount

/-- What is checked against a limit is there in the storage. -/
structure NoFallback (m : Machine) : Prop where
  /-- Below the limit the stack has room. -/
  pushed : m.depth < m.limits.stackSize → ∀ v, (m.pushed? v).isSome
  /-- With two words on the stack, one can be dropped and the next one
  replaced. -/
  combined : ∀ upper lower rest v, m.stack = upper :: lower :: rest →
    ∃ m', m.popped? = some (upper, m') ∧ (m'.topReplaced? v).isSome
  visibleRegisters : front? m.registers m.limits.registerCount = some m.visibleRegisters
  program : front? m.memory m.programSize = some m.program
  /-- The code of the machine is the whole memory up to the limit. -/
  code : m.code.toList = m.memory.toList.take m.limits.memorySize ∧
    m.code.size = m.limits.memorySize
  /-- A register that was checked can be read. -/
  read : ∀ offset r slot, m.slot offset r = .ok slot → m.registers[slot]?.isSome
  /-- A register that was checked passes the check again once the top of
  the stack is dropped, and can be set. -/
  stored : ∀ offset r slot v m', m.slot offset r = .ok slot → m.popped? = some (v, m') →
    m'.slot offset r = .ok slot ∧ (m'.stored? slot v).isSome

/-- A place that a check answers lies below the limit. -/
lemma slot_lt {m : Machine} {offset slot : ℕ} {r : UInt8} (h : m.slot offset r = .ok slot) :
    slot < m.limits.registerCount := by
  rw [Machine.slot] at h
  split_ifs at h with hr
  cases h
  omega

/-- A well-formed machine is never asked for more than it has. -/
theorem WellFormed.noFallback {m : Machine} (h : m.WellFormed) : m.NoFallback := by
  have hmemory := h.memorySize_le
  have hprogram := h.programSize_le
  constructor
  case pushed =>
    intro hd v
    rw [pushed?, if_pos (lt_of_lt_of_le hd h.stackSize_le)]
    rfl
  case combined =>
    intro upper lower rest v hs
    refine ⟨{ m with stack := lower :: rest }, ?_, rfl⟩
    rw [popped?, hs]
  case visibleRegisters =>
    rw [front?_eq_some h.registerCount_le, visibleRegisters_eq h.registerCount_le]
  case program =>
    rw [front?_eq_some (by omega), program_eq (by omega)]
  case code =>
    exact ⟨Code.toList_upTo _ _, size_code hmemory⟩
  case read =>
    intro offset r slot hslot
    have hlt : slot < m.registers.size := lt_of_lt_of_le (slot_lt hslot) h.registerCount_le
    rw [Array.getElem?_eq_getElem hlt]
    rfl
  case stored =>
    intro offset r slot v m' hslot hpop
    have hlt : slot < m.registers.size := lt_of_lt_of_le (slot_lt hslot) h.registerCount_le
    rw [popped?] at hpop
    cases hs : m.stack with
    | nil => simp [hs] at hpop
    | cons top rest =>
        simp only [hs, Option.some.injEq, Prod.mk.injEq] at hpop
        obtain ⟨rfl, rfl⟩ := hpop
        refine ⟨hslot, ?_⟩
        rw [stored?, if_pos hlt]
        rfl

variable {capacity limits : Limits} {program : Bytes} {m : Machine}

/-- The loaded bytes are read back for life. -/
lemma Life.program_eq (h : Life capacity limits program m) : m.program = program := by
  have hsize : m.programSize = program.size := h.sameStorage.programSize_eq
  have hmem : m.memory = (fresh capacity limits program).memory := h.sameStorage.memory_eq
  have hle : m.programSize ≤ m.memory.size := h.wellFormed.programSize_le.trans
    h.wellFormed.memorySize_le
  calc m.program = m.memory.extract 0 m.programSize := Machine.program_eq hle
    _ = (fresh capacity limits program).memory.extract 0 program.size := by rw [hmem, hsize]
    _ = program := by simp [fresh]

/-- **The representation invariant over whole lives**: whatever steps and
runs a machine has been through, it represents its program under its
limits, and no storage is asked for more than it has. -/
theorem life_representation (h : Life capacity limits program m) :
    Represents capacity limits program m ∧ m.NoFallback := by
  have hw := h.wellFormed
  have hstorage := h.sameStorage
  obtain ⟨hfits, hprogram⟩ := h.fits
  have hlimits : m.limits = limits := hstorage.limits_eq
  have hsize : m.programSize = program.size := hstorage.programSize_eq
  have hvisible : m.limits.registerCount ≤ m.registers.size := hw.registerCount_le
  refine ⟨?_, hw.noFallback⟩
  constructor
  case limits_eq => exact hlimits
  case fits => exact hfits
  case stackCapacity_eq => exact hstorage.stackCapacity_eq
  case size_registers => exact hstorage.size_registers.trans Array.size_replicate
  case size_memory =>
    have hcap : limits.memorySize ≤ capacity.memorySize := (hfits .memory).2
    rw [hstorage.memory_eq, fresh]
    simp only [Array.size_append, Array.size_replicate]
    omega
  case programSize_eq => exact hsize
  case size_program_le => exact hprogram
  case depth_le => exact hlimits ▸ hw.depth_le
  case ip_le => exact hlimits ▸ hw.ip_le
  case program_eq => exact h.program_eq
  case memory_eq_zero => exact hsize ▸ hw.memory_eq_zero
  case register_eq_zero => exact hlimits ▸ hw.register_eq_zero
  case size_visibleRegisters =>
    rw [visibleRegisters_eq hvisible, Array.size_extract, ← hlimits]
    omega
  case register?_isSome_iff =>
    intro r
    rw [← hlimits]
    by_cases hr : r.toNat < m.limits.registerCount
    · have hlt : r.toNat < m.registers.size := lt_of_lt_of_le hr hvisible
      rw [register?_of_lt hvisible hr, Array.getElem?_eq_getElem hlt]
      simp [hr]
    · rw [register?_of_le hvisible (by omega)]
      simp [hr]

/-- The invariant after `PUSH 7`, `STORE r3` and a `POP` that finds the
stack empty. -/
theorem life_representation_after_fault :
    ∃ out : Outcome Unit Tape,
      (fresh ⟨8, 4, 16⟩ ⟨2, 4, 9⟩ #[1, 7, 0, 0, 0, 4, 3, 2]).run 10 (Tape.blank 0) = some out ∧
        out.answer = .error (.stackUnderflow .pop 7 1 0) ∧ out.machine.register? 3 = some 7 ∧
        Represents ⟨8, 4, 16⟩ ⟨2, 4, 9⟩ #[1, 7, 0, 0, 0, 4, 3, 2] out.machine ∧
        out.machine.NoFallback := by
  have hload : load ⟨8, 4, 16⟩ ⟨2, 4, 9⟩ #[1, 7, 0, 0, 0, 4, 3, 2]
      = .ok (fresh ⟨8, 4, 16⟩ ⟨2, 4, 9⟩ #[1, 7, 0, 0, 0, 4, 3, 2]) :=
    load_eq_ok_iff.mpr ⟨fun r => by cases r <;> decide, by decide, rfl⟩
  have hrun : ((fresh ⟨8, 4, 16⟩ ⟨2, 4, 9⟩ #[1, 7, 0, 0, 0, 4, 3, 2]).run 10
      (Tape.blank 0)).map (fun out => (out.answer, out.machine.register? 3))
        = some (.error (.stackUnderflow .pop 7 1 0), some 7) := by decide +kernel
  obtain ⟨out, hout, hends⟩ := Option.map_eq_some_iff.mp hrun
  obtain ⟨hanswer, hregister⟩ := Prod.mk.inj hends
  exact ⟨out, hout, hanswer, hregister,
    life_representation (.run (Tape.blank 0) (.load hload) hout)⟩

end Bytecode.Machine
