/-
How far the instruction pointer gets.

* `Instruction.jump?`: where an instruction jumps, given the top of the stack;
* `Machine.JumpsBack`: the next step takes a jump that leads no further than to
  the jump itself;
* `ip_of_effect`: an instruction goes on at the target of the jump that it takes,
  or else behind itself;
* `lt_ip_step_iff` (**progress**): a step moves the instruction pointer forward,
  unless it jumps back;
* `add_ip_le` (**what steps cost**): each step takes at least a byte of memory,
  and each jump back gives at most all of it back;
* `long_only_by_jumping_back`: the number of steps is bounded by that of the jumps
  back, and a run without any returns.
-/
import Mathlib
import Bytecode.Proofs.Steps

namespace Bytecode

/-- Where an instruction jumps with this on top of the stack, if it does. -/
def Instruction.jump? (top? : Option Word) : Instruction → Option UInt16
  | .jmp target => some target
  | .jz target => top?.bind fun v => if v = 0 then some target else none
  | .jnz target => top?.bind fun v => if v = 0 then none else some target
  | _ => none

namespace Machine

/-- The target of the jump that the next step takes, if it takes one. -/
def jump? (m : Machine) : Option UInt16 :=
  m.attempted?.bind (Instruction.jump? m.top?)

/-- The next step takes a jump to a target that is not greater than the offset of
the jump. -/
def JumpsBack (m : Machine) : Prop :=
  ∃ target ∈ m.jump?, target.toNat ≤ m.ip

instance (m : Machine) : Decidable m.JumpsBack :=
  inferInstanceAs (Decidable (∃ target ∈ m.jump?, target.toNat ≤ m.ip))

/-- How many of the first steps jump back. -/
def backJumps {σ : Type} [Sink σ] (m : Machine) (s : σ) (n : ℕ) : ℕ :=
  Nat.count (fun j => (m.steps s j).machine.JumpsBack) n

variable {m : Machine} {i : Instruction} {e : Effect} {next : ℕ}

/-- Only a machine that is ready jumps. -/
lemma not_jumpsBack_of_ne_ready (h : m.status ≠ .ready) : ¬ m.JumpsBack := by
  have hnone : m.attempted? = none :=
    Option.eq_none_iff_forall_ne_some.mpr fun i hi => h (attempted?_eq_some_iff.mp hi).1
  simp [JumpsBack, jump?, hnone]

/-! ### Where an instruction goes on -/

/-- A push goes on behind itself. -/
lemma ip_of_pushing {v : Word} (he : m.pushing v next = .ok (some e)) : e.ip = next := by
  obtain ⟨-, rfl⟩ := eq_of_pushing he
  rfl

/-- An operation on two words goes on behind itself. -/
lemma ip_of_combining (op : Arithmetic) (he : m.combining op next = .ok (some e)) :
    e.ip = next := by
  obtain ⟨_, _, _, _, -, rfl⟩ := exists_of_combining he
  rfl

/-- A jump goes on where its check says. -/
lemma eq_ip_of_jumping {destination : Except Fault ℕ}
    (he : m.jumping destination = .ok (some e)) : destination = .ok e.ip := by
  obtain ⟨_, hdestination, rfl⟩ := exists_of_jumping he
  exact hdestination

/-- **Where an instruction goes on**: at the target of the jump that it takes, or
else behind itself. -/
theorem ip_of_effect (he : m.effect i next = .ok (some e)) :
    e.ip = ((i.jump? m.top?).map UInt16.toNat).getD next := by
  cases i with
  | nop =>
      cases he
      rfl
  | push v => exact ip_of_pushing he
  | pop =>
      obtain ⟨_, _, _, rfl⟩ := exists_of_taking he
      rfl
  | load r =>
      rw [effect] at he
      cases hr : m.register? r with
      | none => simp [hr] at he
      | some v =>
          simp only [hr] at he
          exact ip_of_pushing he
  | store r =>
      rw [effect] at he
      split_ifs at he
      obtain ⟨_, _, _, rfl⟩ := exists_of_taking he
      rfl
  | jmp target => exact (eq_of_destination (eq_ip_of_jumping he)).1
  | jz target =>
      obtain ⟨-, v, hv, hip⟩ := eq_of_branch (eq_ip_of_jumping he)
      by_cases hzero : v = 0
      · simpa [Instruction.jump?, hv, hzero] using hip
      · simpa [Instruction.jump?, hv, hzero] using hip
  | jnz target =>
      obtain ⟨-, v, hv, hip⟩ := eq_of_branch (eq_ip_of_jumping he)
      by_cases hzero : v = 0
      · simpa [Instruction.jump?, hv, hzero] using hip
      · simpa [Instruction.jump?, hv, hzero] using hip
  | add => exact ip_of_combining .add he
  | sub => exact ip_of_combining .sub he
  | mul => exact ip_of_combining .mul he
  | div => exact ip_of_combining .div he
  | print =>
      obtain ⟨_, _, _, rfl⟩ := exists_of_taking he
      rfl
  | stop => cases he

/-! ### One step -/

variable {σ : Type} [Sink σ] {s : σ}

/-- A step that goes on leads to the target of the jump that it takes, or behind
an instruction that lies within the limit of the memory. -/
lemma ip_step (h : m.WellFormed) (hanswer : (m.step s).answer = .ok .ready) :
    ∃ next, m.ip < next ∧ next ≤ m.limits.memorySize ∧
      (m.step s).machine.ip = (m.jump?.map UInt16.toNat).getD next := by
  obtain ⟨e, he, hmachine⟩ := exists_after_of_answer h hanswer
  obtain ⟨i, next, hfetch, heffect⟩ := exists_of_nextEffect he
  obtain ⟨-, hnext, hle⟩ := fetch_eq_ok h hfetch
  have hattempted : m.attempted? = some i :=
    attempted?_eq_some_iff.mpr ⟨ready_of_answer hanswer, next, hfetch⟩
  have hpos : 0 < i.size := Opcode.size_pos _
  refine ⟨next, by omega, hle, ?_⟩
  rw [hmachine, jump?, hattempted]
  exact ip_of_effect heffect

/-- **Progress**: a step that goes on moves the instruction pointer forward,
unless it jumps back. -/
theorem lt_ip_step_iff (h : m.WellFormed) (hanswer : (m.step s).answer = .ok .ready) :
    m.ip < (m.step s).machine.ip ↔ ¬ m.JumpsBack := by
  obtain ⟨next, hlt, -, hip⟩ := ip_step h hanswer
  rw [hip, JumpsBack]
  cases m.jump? with
  | none => simp [hlt]
  | some target => simp

/-- A step that goes on starts below the limit of the memory. -/
lemma ip_lt_of_answer (h : m.WellFormed) (hanswer : (m.step s).answer = .ok .ready) :
    m.ip < m.limits.memorySize := by
  obtain ⟨next, hlt, hle, -⟩ := ip_step h hanswer
  exact hlt.trans_le hle

/-! ### Several steps -/

/-- **What steps cost**: each of them takes at least a byte of the memory that is
left behind the instruction pointer, and a jump back gives back no more than all
of the memory. -/
theorem add_ip_le (h : m.WellFormed) {n : ℕ} (hready : m.StaysReady s n) :
    n + m.ip ≤ m.backJumps s n * m.limits.memorySize + (m.steps s n).machine.ip := by
  induction n with
  | zero => simp [steps]
  | succ n ih =>
      obtain ⟨hbefore, hanswer⟩ := staysReady_succ_iff.mp hready
      have hle := ih hbefore
      have hlimits : (m.steps s n).machine.limits = m.limits := (sameStorage_steps h s n).limits_eq
      have hlt := ip_lt_of_answer (h.steps s n) hanswer
      have hprogress := lt_ip_step_iff (h.steps s n) hanswer
      rw [hlimits] at hlt
      rw [backJumps, Nat.count_succ, ← backJumps, steps]
      dsimp only
      by_cases hback : (m.steps s n).machine.JumpsBack
      · rw [if_pos hback, Nat.add_mul, Nat.one_mul]
        omega
      · have hforward := hprogress.mpr hback
        rw [if_neg hback, Nat.add_zero (m.backJumps s n)]
        omega

/-- Steps that all go on are as many as the memory, taken once and once more for
each jump back, has bytes behind the instruction pointer. -/
lemma le_of_staysReady (h : m.WellFormed) {n : ℕ} (hready : m.StaysReady s n) :
    n + m.ip ≤ (m.backJumps s n + 1) * m.limits.memorySize := by
  have hcost := add_ip_le h hready
  have hip := (h.steps s n).ip_le
  rw [(sameStorage_steps h s n).limits_eq] at hip
  rw [Nat.add_mul, Nat.one_mul]
  omega

/-- **A bound on the jumps back bounds the steps**: after so many steps that go on
there is one that ends the program. -/
theorem exists_ends_of_backJumps_le (h : m.WellFormed) {k : ℕ}
    (hback : ∀ n, m.backJumps s n ≤ k) :
    ∃ n ≤ (k + 1) * m.limits.memorySize - m.ip, m.StaysReady s n ∧
      ∃ answer, Ends ((m.steps s n).machine.step (m.steps s n).sink).answer answer := by
  have hnot : ¬ m.StaysReady s ((k + 1) * m.limits.memorySize - m.ip + 1) := by
    intro hready
    have hle := le_of_staysReady h hready
    have hmul := Nat.mul_le_mul_right m.limits.memorySize
      (Nat.add_le_add_right (hback ((k + 1) * m.limits.memorySize - m.ip + 1)) 1)
    omega
  obtain ⟨n, hn, hready, hends⟩ := exists_ends_of_not_staysReady hnot
  exact ⟨n, Nat.le_of_lt_succ hn, hready, hends⟩

/-- Where no step jumps back, none is counted. -/
lemma backJumps_le_zero (h : ∀ n, ¬ (m.steps s n).machine.JumpsBack) (n : ℕ) :
    m.backJumps s n ≤ 0 :=
  (Nat.count_iff_forall_not.mpr fun j _ => h j).le

variable {capacity limits : Limits} {program : Bytes}

/-- **Long only by jumping back**: whatever a machine has been through, if it takes
`n` steps that all answer that it is ready, and jumps back in `k` of them, then `n` is
at most `k + 1` times the size of the memory. A jump that is taken leads to its target;
a step that goes on leads further on exactly if it does not jump back, and never
beyond the limit of the memory. If no step jumps back, then after at most as many
steps as there are bytes up to the limit the program stops or faults; and if no step
of a run jumps back, the run returns. -/
theorem long_only_by_jumping_back (h : Life capacity limits program m) (s : σ) :
    (∀ n, m.StaysReady s n → n ≤ (m.backJumps s n + 1) * limits.memorySize) ∧
    ((m.step s).answer = .ok .ready →
      (∀ target, m.jump? = some target → (m.step s).machine.ip = target.toNat) ∧
        (m.ip < (m.step s).machine.ip ↔ ¬ m.JumpsBack) ∧
        (m.step s).machine.ip ≤ limits.memorySize) ∧
    ((∀ n, ¬ (m.steps s n).machine.JumpsBack) →
      ∃ n ≤ limits.memorySize - m.ip, m.StaysReady s n ∧
        ∃ answer, Ends ((m.steps s n).machine.step (m.steps s n).sink).answer answer) ∧
    ((∀ n, ¬ (m.restart.steps s n).machine.JumpsBack) → ∃ out, m.Returns s out) := by
  have hw := h.wellFormed
  have hlimits : m.limits = limits := h.sameStorage.limits_eq
  subst hlimits
  refine ⟨fun n hready => ?_, fun hanswer => ⟨fun target htarget => ?_, ?_, ?_⟩,
    fun hback => ?_, fun hback => ?_⟩
  · have hle := le_of_staysReady hw hready
    omega
  · obtain ⟨next, -, -, hip⟩ := ip_step hw hanswer
    rw [hip, htarget]
    rfl
  · exact lt_ip_step_iff hw hanswer
  · have hip := (hw.step s).ip_le
    rwa [(sameStorage_step hw s).limits_eq] at hip
  · have hends := exists_ends_of_backJumps_le hw (backJumps_le_zero hback)
    rwa [Nat.zero_add, Nat.one_mul] at hends
  · obtain ⟨n, -, -, answer, hends⟩ :=
      exists_ends_of_backJumps_le hw.restart (backJumps_le_zero hback)
    exact ⟨_, returns_of_ends hends⟩

/-- `PUSH 2`, then `PUSH 1`, `SUB` and `JNZ 5` over and over until `STOP`: seven steps
with one jump back, where twice the memory would have been the bound. `JMP 4` over an
unused byte to `STOP` returns, for it leads on. -/
theorem long_only_by_jumping_back_of_countdown :
    let m := fresh ⟨8, 4, 16⟩ ⟨2, 3, 15⟩ #[1, 2, 0, 0, 0, 1, 1, 0, 0, 0, 9, 7, 5, 0, 13]
    let m' := fresh ⟨8, 4, 16⟩ ⟨2, 3, 5⟩ #[5, 4, 0, 255, 13]
    (m.StaysReady (Tape.blank 0) 7 ∧ ¬ m.StaysReady (Tape.blank 0) 8 ∧
      m.backJumps (Tape.blank 0) 7 = 1 ∧
      7 ≤ (m.backJumps (Tape.blank 0) 7 + 1) * 15) ∧
      ∃ out, m'.Returns (Tape.blank 0) out := by
  intro m m'
  have hload : load ⟨8, 4, 16⟩ ⟨2, 3, 15⟩ #[1, 2, 0, 0, 0, 1, 1, 0, 0, 0, 9, 7, 5, 0, 13]
      = .ok m :=
    load_eq_ok_iff.mpr ⟨fun r => by cases r <;> decide, by decide, rfl⟩
  have hload' : load ⟨8, 4, 16⟩ ⟨2, 3, 5⟩ #[5, 4, 0, 255, 13] = .ok m' :=
    load_eq_ok_iff.mpr ⟨fun r => by cases r <;> decide, by decide, rfl⟩
  have hready : m.StaysReady (Tape.blank 0) 7 := by
    change ∀ answer ∈ (m.steps (Tape.blank 0) 7).answers, _
    have hanswers : (m.steps (Tape.blank 0) 7).answers = List.replicate 7 (.ok .ready) := by
      decide +kernel
    rw [hanswers]
    exact fun answer => List.eq_of_mem_replicate
  have hnot : ¬ m.StaysReady (Tape.blank 0) 8 := by
    rw [staysReady_succ_iff, not_and]
    intro _
    decide +kernel
  -- the second step stops, and those behind it change nothing
  have hback : ∀ n, ¬ (m'.restart.steps (Tape.blank 0) n).machine.JumpsBack := by
    intro n
    rcases Nat.lt_or_ge n 2 with hn | hn
    · interval_cases n
      · decide +kernel
      · decide +kernel
    · obtain ⟨k, rfl⟩ := Nat.exists_eq_add_of_le hn
      have hstopped : (m'.restart.steps (Tape.blank 0) 2).machine.status = .stopped := by
        decide +kernel
      have hnot : (m'.restart.steps (Tape.blank 0) 2).machine.status ≠ .ready := by
        rw [hstopped]
        simp
      rw [steps_add, steps_of_not_ready hnot]
      dsimp only
      exact not_jumpsBack_of_ne_ready hnot
  obtain ⟨hbound, -⟩ := long_only_by_jumping_back (.load hload) (Tape.blank 0)
  obtain ⟨-, -, -, hreturns⟩ := long_only_by_jumping_back (.load hload') (Tape.blank 0)
  have hcount : m.backJumps (Tape.blank 0) 7 = 1 := by decide +kernel
  refine ⟨⟨hready, hnot, hcount, ?_⟩, hreturns hback⟩
  exact hbound 7 hready

end Machine

end Bytecode
