/-
Sequences of steps, and runs as sequences of steps.

* `answer_step`: a step leaves the status of what it has answered;
* `Machine.Attempts`: the instruction that the next step executes;
  `exists_after_of_answer`: a step that goes on leads where its effect leads;
* `steps_succ'`, `steps_add`: several steps, the first of them taken off, and
  several more behind them;
* `steps_of_not_ready`: a machine that is not ready answers the same again
  and again, and nothing changes;
* `Machine.StaysReady`: several steps all go on;
  `exists_ends_of_not_staysReady`: if they do not, one of them ends the program;
* `Machine.Returns`: a run comes to an end, whatever number of steps it
  takes; `Returns.unique`: it has one outcome;
* `exists_drive_iff` (**runs are sequences of steps**): a machine is driven
  to what some number of steps comes to that ends the program;
* `returns_iff_of_load`: the same of a run right after loading.
-/
import Mathlib
import Bytecode.Proofs.Life

namespace Bytecode

/-- What a run has to answer after the last answer of its steps. -/
inductive Ends : Except Fault Signal → Except Fault Unit → Prop
  /-- The program has stopped. -/
  | stopped : Ends (.ok .stopped) (.ok ())
  /-- The program has faulted. -/
  | faulted (fault : Fault) : Ends (.error fault) (.error fault)

/-- A step answers that the machine is ready, or it ends the program. -/
lemma ready_or_ends (answer : Except Fault Signal) :
    answer = .ok .ready ∨ ∃ answer', Ends answer answer' := by
  cases answer with
  | error fault => exact .inr ⟨_, .faulted fault⟩
  | ok signal =>
      cases signal with
      | ready => exact .inl rfl
      | stopped => exact .inr ⟨_, .stopped⟩

/-- A status that ends a program is not the ready one. -/
lemma Ends.ne_ready {status : Status} {answer : Except Fault Unit} (h : Ends status.answer answer) :
    status ≠ .ready := by
  rintro rfl
  cases h

/-- A run that stops leaves a machine that has stopped. -/
lemma Ends.eq_stopped {status : Status} (h : Ends status.answer (.ok ())) : status = .stopped := by
  cases status with
  | stopped => rfl
  | ready => cases h
  | faulted fault => cases h

namespace Machine

variable {σ : Type} [Sink σ] {m : Machine} {s : σ}

/-! ### Answers and statuses -/

/-- A step leaves the status of what it has answered. -/
lemma answer_step (m : Machine) (s : σ) :
    (m.step s).machine.status.answer = (m.step s).answer := by
  by_cases hready : m.status = .ready
  · cases hfetch : m.fetch with
    | error fault =>
        rw [step_of_fetch_error hready hfetch]
        rfl
    | ok found =>
        rw [step_of_fetch hready hfetch]
        cases (execute m.ip found.1 found.2).run (m, s) with
        | ok signal after => cases signal <;> rfl
        | error fault after => rfl
  · rw [step_of_not_ready hready]

/-- Only a machine that is ready answers that it is ready. -/
lemma ready_of_answer (h : (m.step s).answer = .ok .ready) : m.status = .ready := by
  by_contra hready
  rw [step_of_not_ready hready] at h
  exact hready (Status.answer_injective h)

/-- The instruction that the next step executes. -/
def Attempts (m : Machine) (i : Instruction) : Prop :=
  m.status = .ready ∧ ∃ next, m.fetch = .ok (i, next)

/-- The same instruction, if the next step gets so far. -/
def attempted? (m : Machine) : Option Instruction :=
  match m.status, m.fetch with
  | .ready, .ok (i, _) => some i
  | _, _ => none

/-- A machine that is ready executes the instruction that it fetches, and no other
machine executes any. -/
lemma attempted?_eq_some_iff {i : Instruction} : m.attempted? = some i ↔ m.Attempts i := by
  rw [attempted?, Attempts]
  cases m.status with
  | stopped => simp
  | faulted fault => simp
  | ready =>
      cases m.fetch with
      | error fault => simp
      | ok found => simp [Prod.ext_iff]

/-- A machine that goes on has executed an instruction, and stands where the
effect of that instruction leads. -/
lemma exists_after_of_answer (h : m.WellFormed) (hanswer : (m.step s).answer = .ok .ready) :
    ∃ e, m.nextEffect = .ok (some e) ∧ (m.step s).machine = m.after e := by
  cases transition_step h (ready_of_answer hanswer) s with
  | fault _ hout =>
      rw [hout] at hanswer
      cases hanswer
  | stop _ hout =>
      rw [hout] at hanswer
      cases hanswer
  | proceed he _ hout => exact ⟨_, he, by rw [hout]⟩
  | print he _ _ hout => exact ⟨_, he, by rw [hout]⟩
  | refuse _ _ _ hout =>
      rw [hout] at hanswer
      cases hanswer

/-! ### Several steps -/

/-- Several steps, the first of them taken off. -/
lemma steps_succ' (m : Machine) (s : σ) (n : ℕ) :
    m.steps s (n + 1) =
      { (m.step s).machine.steps (m.step s).sink n with
        answers :=
          (m.step s).answer :: ((m.step s).machine.steps (m.step s).sink n).answers } := by
  induction n with
  | zero => rfl
  | succ n ih =>
      rw [steps, ih]
      rfl

/-- Several steps, and then several more. -/
lemma steps_add (m : Machine) (s : σ) (k n : ℕ) :
    m.steps s (k + n) =
      { (m.steps s k).machine.steps (m.steps s k).sink n with
        answers := (m.steps s k).answers ++
          ((m.steps s k).machine.steps (m.steps s k).sink n).answers } := by
  induction n with
  | zero => simp [steps]
  | succ n ih =>
      rw [← Nat.add_assoc, steps, ih]
      simp [steps]

/-- The last answer of several steps, with the status after them. -/
lemma getLast?_answers (m : Machine) (s : σ) (n : ℕ) :
    (m.steps s (n + 1)).answers.getLast? = some (m.steps s (n + 1)).machine.status.answer := by
  rw [steps, List.getLast?_append, answer_step]
  rfl

/-- A machine that is not ready answers the same again and again, and nothing
changes. -/
lemma steps_of_not_ready (h : m.status ≠ .ready) (s : σ) (n : ℕ) :
    m.steps s n = ⟨List.replicate n m.status.answer, m, s⟩ := by
  induction n with
  | zero => rfl
  | succ n ih =>
      rw [steps, ih]
      dsimp only
      rw [step_of_not_ready h, List.replicate_succ']

/-- A fault among the answers is the status ever after. -/
lemma status_of_error_mem_answers {fault : Fault} {n : ℕ}
    (h : .error fault ∈ (m.steps s n).answers) :
    (m.steps s n).machine.status = .faulted fault := by
  induction n with
  | zero => cases h
  | succ n ih =>
      rw [steps] at h ⊢
      rcases List.mem_append.mp h with h | h
      · have hbefore := ih h
        have hnot : (m.steps s n).machine.status ≠ .ready := by simp [hbefore]
        dsimp only
        rw [step_of_not_ready hnot]
        exact hbefore
      · have hanswer := answer_step (m.steps s n).machine (m.steps s n).sink
        rw [← List.mem_singleton.mp h] at hanswer
        exact Status.answer_injective hanswer

/-- The first steps all answer that the machine is ready. -/
def StaysReady (m : Machine) (s : σ) (n : ℕ) : Prop :=
  ∀ answer ∈ (m.steps s n).answers, answer = .ok .ready

/-- A machine stays ready for another step if that step answers so. -/
lemma staysReady_succ_iff {n : ℕ} :
    m.StaysReady s (n + 1) ↔
      m.StaysReady s n ∧ ((m.steps s n).machine.step (m.steps s n).sink).answer = .ok .ready := by
  simp only [StaysReady, steps, List.mem_append, List.mem_singleton, or_imp, forall_and,
    forall_eq]

/-- A machine that is ready is ready after steps that go on. -/
lemma StaysReady.status {n : ℕ} (hstays : m.StaysReady s n) (hready : m.status = .ready) :
    (m.steps s n).machine.status = .ready := by
  cases n with
  | zero => exact hready
  | succ n =>
      have hanswer := answer_step (m.steps s n).machine (m.steps s n).sink
      rw [(staysReady_succ_iff.mp hstays).2] at hanswer
      exact Status.answer_injective hanswer

/-- Among steps that do not all go on there is one that ends the program, and
those before it go on. -/
lemma exists_ends_of_not_staysReady {n : ℕ} (h : ¬ m.StaysReady s n) :
    ∃ k < n, m.StaysReady s k ∧
      ∃ answer, Ends ((m.steps s k).machine.step (m.steps s k).sink).answer answer := by
  induction n with
  | zero => exact absurd (fun answer hanswer => by cases hanswer) h
  | succ n ih =>
      by_cases hbefore : m.StaysReady s n
      · rcases ready_or_ends ((m.steps s n).machine.step (m.steps s n).sink).answer with
          hready | hends
        · exact absurd (staysReady_succ_iff.mpr ⟨hbefore, hready⟩) h
        · exact ⟨n, Nat.lt_succ_self n, hbefore, hends⟩
      · obtain ⟨k, hk, hend⟩ := ih hbefore
        exact ⟨k, hk.trans (Nat.lt_succ_self n), hend⟩

/-! ### Runs -/

/-- A run comes to an end with an outcome. -/
def Returns (m : Machine) (s : σ) (out : Outcome Unit σ) : Prop :=
  ∃ fuel, m.run fuel s = some out

/-- A machine whose step has ended the program is driven no further. -/
lemma drive_of_ends {answer : Except Fault Unit} (h : Ends (m.step s).answer answer) (fuel : ℕ) :
    m.drive (fuel + 1) s = some ⟨answer, (m.step s).machine, (m.step s).sink⟩ := by
  rw [drive_succ]
  cases h' : (m.step s).answer with
  | error fault =>
      rw [h'] at h
      cases h
      rfl
  | ok signal =>
      rw [h'] at h
      cases h
      rfl

/-- A machine that is ready after a step is driven on. -/
lemma drive_of_ready (h : (m.step s).answer = .ok .ready) (fuel : ℕ) :
    m.drive (fuel + 1) s = (m.step s).machine.drive fuel (m.step s).sink := by
  rw [drive_succ, h]

/-- **Runs are sequences of steps**: a machine is driven to an outcome exactly
if some number of steps has ended the program, and then the outcome is what
these steps have come to. Further steps would not change it. -/
lemma exists_drive_iff {out : Outcome Unit σ} :
    (∃ fuel, m.drive fuel s = some out) ↔
      ∃ n, Ends (m.steps s n).machine.status.answer out.answer ∧
        out.machine = (m.steps s n).machine ∧ out.sink = (m.steps s n).sink := by
  constructor
  · rintro ⟨fuel, h⟩
    induction fuel generalizing m s with
    | zero => cases h
    | succ fuel ih =>
        rcases ready_or_ends (m.step s).answer with hready | ⟨answer, hends⟩
        · rw [drive_of_ready hready] at h
          obtain ⟨n, hrest⟩ := ih h
          refine ⟨n + 1, ?_⟩
          rw [steps_succ']
          exact hrest
        · rw [drive_of_ends hends] at h
          cases h
          refine ⟨1, ?_, rfl, rfl⟩
          rw [← answer_step] at hends
          exact hends
  · rintro ⟨n, hends, hmachine, hsink⟩
    induction n generalizing m s with
    | zero =>
        have hstep : m.step s = ⟨m.status.answer, m, s⟩ := step_of_not_ready hends.ne_ready s
        have hend : Ends (m.step s).answer out.answer := by
          rw [hstep]
          exact hends
        refine ⟨1, ?_⟩
        rw [drive_of_ends hend, hstep]
        obtain ⟨answer, machine, sink⟩ := out
        cases hmachine
        cases hsink
        rfl
    | succ n ih =>
        rw [steps_succ'] at hends hmachine hsink
        dsimp only at hends hmachine hsink
        rcases ready_or_ends (m.step s).answer with hready | ⟨answer, hend⟩
        · obtain ⟨fuel, hfuel⟩ := ih hends hmachine hsink
          exact ⟨fuel + 1, (drive_of_ready hready fuel).trans hfuel⟩
        · -- the first step has ended the program, and the others have changed nothing
          have hstatus : Ends (m.step s).machine.status.answer answer := by
            rw [answer_step]
            exact hend
          rw [steps_of_not_ready hstatus.ne_ready] at hends hmachine hsink
          dsimp only at hends hmachine hsink
          rw [answer_step] at hends
          refine ⟨1, ?_⟩
          rw [drive_of_ends hends, ← hmachine, ← hsink]

/-- A run has one outcome, whatever number of steps it is allowed. -/
lemma Returns.unique {out out' : Outcome Unit σ} (h : m.Returns s out)
    (h' : m.Returns s out') : out = out' := by
  have key : ∀ (fuel fuel' : ℕ) (m : Machine) (s : σ), m.drive fuel s = some out →
      m.drive fuel' s = some out' → out = out' := by
    intro fuel
    induction fuel with
    | zero =>
        intro fuel' m s h
        cases h
    | succ fuel ih =>
        intro fuel' m s h h'
        cases fuel' with
        | zero => cases h'
        | succ fuel' =>
            rcases ready_or_ends (m.step s).answer with hready | ⟨answer, hends⟩
            · rw [drive_of_ready hready] at h h'
              exact ih fuel' _ _ h h'
            · rw [drive_of_ends hends] at h h'
              exact Option.some.inj (h.symm.trans h')
  obtain ⟨fuel, h⟩ := h
  obtain ⟨fuel', h'⟩ := h'
  exact key fuel fuel' _ s h h'

/-- A machine that is driven to an outcome stands there after as many steps: those
behind the end of the program change nothing. -/
lemma steps_of_drive {fuel : ℕ} {out : Outcome Unit σ} (h : m.drive fuel s = some out) :
    (m.steps s fuel).machine = out.machine ∧ (m.steps s fuel).sink = out.sink := by
  induction fuel generalizing m s with
  | zero => cases h
  | succ fuel ih =>
      rw [steps_succ']
      rcases ready_or_ends (m.step s).answer with hready | ⟨answer, hends⟩
      · rw [drive_of_ready hready] at h
        exact ih h
      · rw [drive_of_ends hends] at h
        cases h
        rw [← answer_step] at hends
        rw [steps_of_not_ready hends.ne_ready]
        exact ⟨rfl, rfl⟩

/-- A step that ends the program ends a run whose steps have led to it. -/
lemma returns_of_ends {n : ℕ} {answer : Except Fault Unit}
    (h : Ends ((m.restart.steps s n).machine.step (m.restart.steps s n).sink).answer answer) :
    m.Returns s
      ⟨answer, (m.restart.steps s (n + 1)).machine, (m.restart.steps s (n + 1)).sink⟩ := by
  rw [← answer_step] at h
  exact exists_drive_iff.mpr ⟨n + 1, h, rfl, rfl⟩

/-- A machine that has just loaded a program stands where its runs start. -/
lemma restart_of_load {capacity limits : Limits} {program : Bytes}
    (hload : load capacity limits program = .ok m) : m.restart = m := by
  obtain ⟨-, -, rfl⟩ := load_eq_ok_iff.mp hload
  rfl

/-- A run right after loading is a sequence of steps that ends the program. -/
lemma returns_iff_of_load {capacity limits : Limits} {program : Bytes}
    (hload : load capacity limits program = .ok m) {out : Outcome Unit σ} :
    m.Returns s out ↔
      ∃ n, Ends (m.steps s n).machine.status.answer out.answer ∧
        out.machine = (m.steps s n).machine ∧ out.sink = (m.steps s n).sink := by
  change (∃ fuel, m.restart.drive fuel s = some out) ↔ _
  rw [restart_of_load hload, exists_drive_iff]

end Machine

end Bytecode
