/-
Running a program again: a run starts from the registers that the machine
has, and from nothing else that earlier steps and runs have left.

* `Life.restart_eq`: where a run starts, whatever the machine has been
  through;
* `Life.registers_eq`: machines with the same registers in view have the same
  registers in storage;
* `run_forgets` (**a run forgets everything but the registers**).
-/
import Mathlib
import Bytecode.Proofs.Steps

namespace Bytecode.Machine

variable {capacity limits : Limits} {program : Bytes} {m m' : Machine}

/-- A machine that has just loaded a program, with other registers. -/
def preset (capacity limits : Limits) (program : Bytes) (registers : Array Word) : Machine :=
  { fresh capacity limits program with registers }

/-- A run starts as if the program had just been loaded, but for the
registers. -/
lemma Life.restart_eq (h : Life capacity limits program m) :
    m.restart = preset capacity limits program m.registers := by
  obtain ⟨hlimits, hmemory, hsize, hcapacity, -⟩ := h.sameStorage
  obtain ⟨limits', memory, programSize, stack, stackCapacity, registers, ip, status⟩ := m
  dsimp only at hlimits hmemory hsize hcapacity
  subst hlimits hmemory hsize hcapacity
  rfl

/-- Registers out of view are zero, so the ones in view say it all. -/
lemma Life.registers_eq (h : Life capacity limits program m)
    (h' : Life capacity limits program m') (hview : m.visibleRegisters = m'.visibleRegisters) :
    m.registers = m'.registers := by
  have hw := h.wellFormed
  have hw' := h'.wellFormed
  have hlimits : m'.limits = m.limits :=
    h'.sameStorage.limits_eq.trans h.sameStorage.limits_eq.symm
  have hsize : m.registers.size = m'.registers.size :=
    h.sameStorage.size_registers.trans h'.sameStorage.size_registers.symm
  apply Array.ext hsize
  intro k hk hk'
  apply Option.some.inj
  rw [← Array.getElem?_eq_getElem, ← Array.getElem?_eq_getElem]
  by_cases hlow : k < m.limits.registerCount
  · rw [← getElem?_visibleRegisters hw.registerCount_le hlow, hview,
      getElem?_visibleRegisters hw'.registerCount_le (hlimits ▸ hlow)]
  · have hzero := hw.register_eq_zero k m.registers[k] (by omega) (Array.getElem?_eq_getElem hk)
    have hzero' := hw'.register_eq_zero k m'.registers[k] (by rw [hlimits]; omega)
      (Array.getElem?_eq_getElem hk')
    rw [Array.getElem?_eq_getElem hk, Array.getElem?_eq_getElem hk', hzero, hzero']

/-- **A run forgets everything but the registers**: two machines that have
loaded the same program under the same limits, and then been through any steps
and runs, run alike if their registers in view are the same, with the same
outcome after the same number of steps or none at all. It is the run of a
machine that has just loaded the program and been given these registers, and it
comes to an outcome exactly if some number of steps from there has a last answer
that ends the program: the answer of the run, with the machine and the sink that
these steps leave. -/
theorem run_forgets (h : Life capacity limits program m) (h' : Life capacity limits program m')
    (hview : m.visibleRegisters = m'.visibleRegisters) {σ : Type} [Sink σ] (s : σ) :
    let start := preset capacity limits program m.registers
    (start.ip = 0 ∧ start.stack = [] ∧ start.status = .ready) ∧
      (∀ fuel, m.run fuel s = m'.run fuel s) ∧ (∀ fuel, m.run fuel s = start.run fuel s) ∧
      (∀ out, m.Returns s out ↔ ∃ n answer,
        (start.steps s n).answers.getLast? = some answer ∧ Ends answer out.answer ∧
          out.machine = (start.steps s n).machine ∧ out.sink = (start.steps s n).sink) ∧
      ∀ out out', m.Returns s out → m'.Returns s out' → out = out' := by
  intro start
  have hstart : m.restart = start := h.restart_eq
  have hrestart : m'.restart = start := by
    rw [h'.restart_eq, ← h.registers_eq h' hview]
  have hrun : ∀ fuel, m.run fuel s = m'.run fuel s := by
    intro fuel
    rw [run_eq, run_eq, hstart, hrestart]
  refine ⟨⟨rfl, rfl, rfl⟩, hrun, fun fuel => by rw [run_eq, hstart]; rfl, fun out => ?_, ?_⟩
  · change (∃ fuel, m.restart.drive fuel s = some out) ↔ _
    rw [hstart, exists_drive_iff]
    constructor
    · rintro ⟨n, hends, hmachine, hsink⟩
      cases n with
      | zero => exact absurd rfl hends.ne_ready
      | succ n => exact ⟨n + 1, _, getLast?_answers start s n, hends, hmachine, hsink⟩
    · rintro ⟨n, answer, hlast, hends, hmachine, hsink⟩
      cases n with
      | zero => cases hlast
      | succ n =>
          rw [getLast?_answers] at hlast
          cases hlast
          exact ⟨n + 1, hends, hmachine, hsink⟩
  · rintro out out' hout ⟨fuel, hfuel⟩
    exact hout.unique ⟨fuel, (hrun fuel).trans hfuel⟩

/-- `PUSH 5`, `STORE r0`, `LOAD r0`, `PRINT` and `STOP`: a machine that has
taken two steps and one that has stopped run alike, and print `5`. -/
theorem run_forgets_of_stopped :
    let program : Bytes := #[1, 5, 0, 0, 0, 4, 0, 3, 0, 12, 13]
    let m := ((fresh ⟨8, 4, 16⟩ ⟨2, 3, 12⟩ program).steps (Tape.blank 1) 2).machine
    let m' := ((fresh ⟨8, 4, 16⟩ ⟨2, 3, 12⟩ program).steps (Tape.blank 1) 5).machine
    (m.ip = 7 ∧ m.status = .ready) ∧ (m'.ip = 10 ∧ m'.status = .stopped) ∧
      (∀ fuel, m.run fuel (Tape.blank 1) = m'.run fuel (Tape.blank 1)) ∧
      ∃ out, m'.Returns (Tape.blank 1) out ∧ out.answer = .ok () ∧ out.sink.words = #[5] := by
  intro program m m'
  have hload : load ⟨8, 4, 16⟩ ⟨2, 3, 12⟩ program = .ok (fresh ⟨8, 4, 16⟩ ⟨2, 3, 12⟩ program) :=
    load_eq_ok_iff.mpr ⟨fun r => by cases r <;> decide, by decide, rfl⟩
  have hlife : Life ⟨8, 4, 16⟩ ⟨2, 3, 12⟩ program m := (Life.load hload).steps (Tape.blank 1) 2
  have hlife' : Life ⟨8, 4, 16⟩ ⟨2, 3, 12⟩ program m' := (Life.load hload).steps (Tape.blank 1) 5
  have hview : m'.visibleRegisters = m.visibleRegisters := by decide +kernel
  obtain ⟨-, hrun, -, hreturns, -⟩ := run_forgets hlife' hlife hview (Tape.blank 1)
  refine ⟨by decide +kernel, by decide +kernel, fun fuel => (hrun fuel).symm,
    ⟨.ok (), _, _⟩, (hreturns _).mpr ⟨5, .ok .stopped, ?_, .stopped, rfl, rfl⟩, rfl, ?_⟩
  · decide +kernel
  · decide +kernel

end Bytecode.Machine
