/-
Machines that have left their program.

* `decodeAt_zeros`: behind the program there is nothing but `NOP`s;
* `nextEffect_of_le`: what the next instruction of such a machine comes to, below
  the limit of the memory and at it;
* `steps_of_le` (**drifting**): the steps up to the limit, which change nothing but
  the instruction pointer;
* `Machine.EndsAtLimit`: behind its program a machine is ready, or it has come to the
  limit and faulted there;
* `drifting_ends_at_the_limit`: where machines come to in whatever state they have
  left their programs, and the runs that leave them.
-/
import Mathlib
import Bytecode.Proofs.Steps

namespace Bytecode.Machine

variable {m : Machine}

/-! ### Behind the program -/

/-- The fault of a machine that has come to the limit of its memory. -/
def atLimit (limits : Limits) : Fault :=
  .undecodable (.pastEnd limits.memorySize)

/-- Behind the program and below the limit of the memory there are `NOP`s. -/
lemma decodeAt_zeros (h : m.WellFormed) {p : ℕ} (hp : m.programSize ≤ p)
    (hlt : p < m.limits.memorySize) : m.code.decodeAt p = .ok .nop := by
  have hsize : m.code.size = m.limits.memorySize := size_code h.memorySize_le
  have hmem : p < m.memory.size := hlt.trans_le h.memorySize_le
  have hzero : m.memory.getD p 0 = 0 := by
    rw [← Array.getElem_eq_getD (h := hmem)]
    exact h.memory_eq_zero p _ hp (Array.getElem?_eq_getElem hmem)
  have hbyte : m.code.byteAt p = .ok 0 := by
    rw [Code.byteAt, if_pos (by omega)]
    exact congrArg Except.ok hzero
  have hoperand : m.code.operandAt 0 (p + 1) = .ok 0 := if_pos (by omega)
  rw [Code.decodeAt, hbyte]
  change (m.code.operandAt 0 (p + 1)).map (Instruction.ofOperand .nop) = .ok .nop
  rw [hoperand]
  rfl

/-- What the next instruction behind the program comes to: it goes on with the next
byte, or there is none. -/
lemma nextEffect_of_le (h : m.WellFormed) (hip : m.programSize ≤ m.ip) :
    m.nextEffect =
      if m.ip < m.limits.memorySize then .ok (some { stack := m.stack, ip := m.ip + 1 })
      else .error (atLimit m.limits) := by
  have hle := h.ip_le
  rw [nextEffect, fetch_eq]
  by_cases hlt : m.ip < m.limits.memorySize
  · rw [if_neg (Nat.not_le.mpr hlt), decodeAt_zeros h hip hlt, if_pos hlt]
    rfl
  · rw [if_pos (Nat.le_of_not_lt hlt), if_neg hlt, atLimit]
    have heq : m.ip = m.limits.memorySize := by omega
    rw [heq]

variable {σ : Type} [Sink σ]

/-- A step behind the program, below the limit of the memory. -/
lemma step_of_le_of_lt (h : m.WellFormed) (hready : m.status = .ready)
    (hip : m.programSize ≤ m.ip) (hlt : m.ip < m.limits.memorySize) (s : σ) :
    m.step s = ⟨.ok .ready, { m with ip := m.ip + 1 }, s⟩ := by
  rw [step_of_ready h hready, nextEffect_of_le h hip, if_pos hlt]
  exact congrArg (Outcome.mk _ · s) (withStatus_after hready _)

/-- A step at the limit of the memory. -/
lemma step_of_eq (h : m.WellFormed) (hready : m.status = .ready)
    (hip : m.ip = m.limits.memorySize) (s : σ) :
    m.step s = ⟨.error (atLimit m.limits), m.withStatus (.faulted (atLimit m.limits)), s⟩ := by
  rw [step_of_ready h hready, nextEffect_of_le h (hip ▸ h.programSize_le),
    if_neg (Nat.not_lt_of_le hip.ge)]
  rfl

/-- **Drifting**: behind the program every step up to the limit of the memory moves
the instruction pointer by one and changes nothing else. -/
theorem steps_of_le (h : m.WellFormed) (hready : m.status = .ready)
    (hip : m.programSize ≤ m.ip) (s : σ) {k : ℕ} (hk : m.ip + k ≤ m.limits.memorySize) :
    m.steps s k = ⟨List.replicate k (.ok .ready), { m with ip := m.ip + k }, s⟩ := by
  induction k with
  | zero => rfl
  | succ k ih =>
      have hbefore := ih (by omega)
      have hw := h.steps s k
      rw [hbefore] at hw
      rw [steps, hbefore]
      dsimp only at hw ⊢
      rw [step_of_le_of_lt hw hready (Nat.le_add_right_of_le hip) (by dsimp only; omega)]
      rw [List.replicate_succ', Nat.add_assoc]

/-- Where drifting ends: at the limit of the memory, with a fault. -/
lemma steps_to_limit (h : m.WellFormed) (hready : m.status = .ready)
    (hip : m.programSize ≤ m.ip) (s : σ) :
    m.steps s (m.limits.memorySize - m.ip + 1) =
      ⟨List.replicate (m.limits.memorySize - m.ip) (.ok .ready) ++ [.error (atLimit m.limits)],
        { m with ip := m.limits.memorySize, status := .faulted (atLimit m.limits) }, s⟩ := by
  have hend : m.ip + (m.limits.memorySize - m.ip) = m.limits.memorySize :=
    Nat.add_sub_cancel' h.ip_le
  have hbefore := steps_of_le h hready hip s hend.le
  have hw := h.steps s (m.limits.memorySize - m.ip)
  rw [hbefore] at hw
  rw [steps, hbefore]
  dsimp only at hw ⊢
  rw [step_of_eq hw hready hend]
  dsimp only [withStatus]
  rw [hend]

/-! ### Runs that leave their programs -/

/-- A machine behind its program that is not ready has come to the limit of its
memory and faulted there. -/
def EndsAtLimit (m : Machine) : Prop :=
  m.programSize ≤ m.ip → m.status ≠ .ready →
    m.ip = m.limits.memorySize ∧ m.status = .faulted (atLimit m.limits)

/-- A step behind the program ends at the limit, if it ends the program. -/
lemma EndsAtLimit.step (h : m.WellFormed) (hends : m.EndsAtLimit) (s : σ) :
    (m.step s).machine.EndsAtLimit := by
  by_cases hready : m.status = .ready
  · intro hip hstatus
    cases transition_step h hready s with
    | fault he hout =>
        rw [hout] at hip ⊢
        have hle := h.ip_le
        rw [nextEffect_of_le h hip] at he
        split_ifs at he with hlt
        cases he
        exact ⟨Nat.le_antisymm hle (Nat.le_of_not_lt hlt), rfl⟩
    | stop he hout =>
        rw [hout] at hip
        rw [nextEffect_of_le h hip] at he
        split_ifs at he
        cases he
    | proceed _ _ hout =>
        rw [hout] at hstatus
        exact absurd hready hstatus
    | print _ _ _ hout =>
        rw [hout] at hstatus
        exact absurd hready hstatus
    | refuse he hv _ hout =>
        rw [hout] at hip
        rw [nextEffect_of_le h hip] at he
        split_ifs at he
        cases he
        cases hv
  · rw [step_of_not_ready hready]
    exact hends

/-- Where a machine that was ready ends behind its program, after any steps. -/
lemma endsAtLimit_steps (h : m.WellFormed) (hready : m.status = .ready) (s : σ) (n : ℕ) :
    (m.steps s n).machine.EndsAtLimit := by
  induction n with
  | zero => exact fun _ hstatus => absurd hready hstatus
  | succ n ih => exact ih.step (h.steps s n) _

/-- A run that leaves its program ends at the limit of the memory, and changes
nothing on its way there. -/
lemma returns_of_le (h : m.WellFormed) (s : σ) {n : ℕ}
    (hleft : m.programSize ≤ (m.restart.steps s n).machine.ip) :
    m.Returns s ⟨.error (atLimit m.limits), { (m.restart.steps s n).machine with
      ip := m.limits.memorySize
      status := .faulted (atLimit m.limits) }, (m.restart.steps s n).sink⟩ := by
  have hw := h.restart.steps s n
  have hends := endsAtLimit_steps h.restart rfl s n
  have hlimits : (m.restart.steps s n).machine.limits = m.limits :=
    (sameStorage_steps h.restart s n).limits_eq
  have hsize : (m.restart.steps s n).machine.programSize = m.programSize :=
    (sameStorage_steps h.restart s n).programSize_eq
  rw [← hsize] at hleft
  rw [← hlimits]
  by_cases hready : (m.restart.steps s n).machine.status = .ready
  · -- the steps on to the limit come behind those that have left the program
    have hsteps := steps_add m.restart s n
      ((m.restart.steps s n).machine.limits.memorySize - (m.restart.steps s n).machine.ip + 1)
    rw [steps_to_limit hw hready hleft] at hsteps
    refine exists_drive_iff.mpr ⟨_, ?_, (congrArg Steps.machine hsteps).symm,
      (congrArg Steps.sink hsteps).symm⟩
    rw [hsteps]
    exact .faulted _
  · obtain ⟨hip, hstatus⟩ := hends hleft hready
    refine exists_drive_iff.mpr ⟨n, ?_, ?_, rfl⟩
    · rw [hstatus]
      exact .faulted _
    · rw [← hip, ← hstatus]

variable {capacity limits : Limits} {program : Bytes}

/-- **Drifting ends at the limit**: whatever a machine has been through, if it is
ready and stands behind its program, then as many steps as there are bytes up to the
limit of its memory answer that it is ready. Each of them moves the instruction pointer
by one and changes nothing else, and the step after them faults because there is no
byte at the limit. So every run whose instruction pointer once lies behind the program
returns with that fault, with the stack, the registers and the sink that it has there. -/
theorem drifting_ends_at_the_limit (h : Life capacity limits program m) (s : σ) :
    let fault := Fault.undecodable (.pastEnd limits.memorySize)
    (m.status = .ready → program.size ≤ m.ip →
      (∀ k ≤ limits.memorySize - m.ip,
        m.steps s k = ⟨List.replicate k (.ok .ready), { m with ip := m.ip + k }, s⟩) ∧
      m.steps s (limits.memorySize - m.ip + 1) =
        ⟨List.replicate (limits.memorySize - m.ip) (.ok .ready) ++ [.error fault],
          { m with ip := limits.memorySize, status := .faulted fault }, s⟩) ∧
    ∀ n, program.size ≤ (m.restart.steps s n).machine.ip →
      let left := m.restart.steps s n
      m.Returns s ⟨.error fault,
        { left.machine with ip := limits.memorySize, status := .faulted fault }, left.sink⟩ := by
  intro fault
  have hw := h.wellFormed
  have hle := hw.ip_le
  have hlimits : m.limits = limits := h.sameStorage.limits_eq
  have hsize : m.programSize = program.size := h.sameStorage.programSize_eq
  subst hlimits
  rw [← hsize]
  exact ⟨fun hready hip => ⟨fun k hk => steps_of_le hw hready hip s (by omega),
    steps_to_limit hw hready hip s⟩, fun n hleft => returns_of_le hw s hleft⟩

/-- `PUSH 7`, and then `JMP 9` over the end of the program: three bytes from the limit
the program is left, and three steps later there is nothing more to execute. -/
theorem drifting_ends_at_the_limit_behind_jump :
    let m := fresh ⟨8, 4, 16⟩ ⟨2, 3, 12⟩ #[1, 7, 0, 0, 0, 5, 9, 0]
    let left := m.steps (Tape.blank 0) 2
    (left.machine.status = .ready ∧ left.machine.ip = 9 ∧ left.machine.stack = [7]) ∧
      left.machine.steps (Tape.blank 0) 3 =
        ⟨List.replicate 3 (.ok .ready), { left.machine with ip := 12 }, Tape.blank 0⟩ ∧
      ∃ out, m.Returns (Tape.blank 0) out ∧
        out.answer = .error (.undecodable (.pastEnd 12)) ∧ out.machine.stack = [7] := by
  intro m left
  have hload : load ⟨8, 4, 16⟩ ⟨2, 3, 12⟩ #[1, 7, 0, 0, 0, 5, 9, 0] = .ok m :=
    load_eq_ok_iff.mpr ⟨fun r => by cases r <;> decide, by decide, rfl⟩
  have hready : left.machine.status = .ready := by decide +kernel
  have hip : left.machine.ip = 9 := by decide +kernel
  have hstack : left.machine.stack = [7] := by decide +kernel
  have hbehind : (#[1, 7, 0, 0, 0, 5, 9, 0] : Bytes).size ≤ left.machine.ip := by
    rw [hip]
    decide
  have hlife : Life ⟨8, 4, 16⟩ ⟨2, 3, 12⟩ #[1, 7, 0, 0, 0, 5, 9, 0] left.machine :=
    Life.steps (.load hload) (Tape.blank 0) 2
  obtain ⟨hdrift, -⟩ := drifting_ends_at_the_limit hlife (Tape.blank 0)
  obtain ⟨-, hreturns⟩ := drifting_ends_at_the_limit (.load hload) (Tape.blank 0)
  rw [restart_of_load hload] at hreturns
  have hsteps := (hdrift hready hbehind).1 3 (by rw [hip]; decide)
  rw [hip] at hsteps
  refine ⟨⟨hready, hip, hstack⟩, hsteps, _, hreturns 2 hbehind, rfl, ?_⟩
  dsimp only
  exact hstack

end Bytecode.Machine
