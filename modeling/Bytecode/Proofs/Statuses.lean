/-
The status of a machine and what it has answered.

* `Machine.settled`: the status that an answer leaves a machine in;
* `status_of_call` and `status_of_calls`: the status after a call is that of its
  answer, and the status after several that of the last one;
* `eq_stop_of_effect`, `Machine.StopsAtStop`: a program ends at a `STOP`, and a machine
  that has stopped stands there (`Life.stopsAtStop`);
* `status_is_the_last_answer` (**status and answers agree**).
-/
import Mathlib
import Bytecode.Proofs.Calls
import Bytecode.Proofs.Testimony

namespace Bytecode.Machine

variable {σ : Type} [Sink σ] {m : Machine} {s : σ}

/-! ### The status after calls -/

/-- The status that an answer leaves a machine in. -/
def settled : Except Fault Reply → Status
  | .ok (.signal signal) => signal.status
  | .ok .done => .stopped
  | .error fault => .faulted fault

/-- What a status answers leaves a machine in that status. -/
lemma settled_answer (status : Status) : settled (status.answer.map .signal) = status := by
  cases status <;> rfl

/-- The answer that leaves a machine ready. -/
lemma settled_eq_ready_iff {answer : Except Fault Reply} :
    settled answer = .ready ↔ answer = .ok (.signal .ready) := by
  rcases answer with fault | (signal | _)
  · simp [settled]
  · cases signal <;> simp [settled, Signal.status]
  · simp [settled]

/-- The answers that leave a machine stopped. -/
lemma settled_eq_stopped_iff {answer : Except Fault Reply} :
    settled answer = .stopped ↔ answer = .ok (.signal .stopped) ∨ answer = .ok .done := by
  rcases answer with fault | (signal | _)
  · simp [settled]
  · cases signal <;> simp [settled, Signal.status]
  · simp [settled]

/-- The answer that leaves a machine with a fault. -/
lemma settled_eq_faulted_iff {answer : Except Fault Reply} {fault : Fault} :
    settled answer = .faulted fault ↔ answer = .error fault := by
  rcases answer with fault' | (signal | _)
  · simp [settled]
  · cases signal <;> simp [settled, Signal.status]
  · simp [settled]

/-- A call leaves the status of its answer. -/
lemma status_of_call {call : Call} {out : Outcome Reply σ} (hcall : m.call s call = some out) :
    out.machine.status = settled out.answer := by
  cases call with
  | step =>
      cases hcall
      change (m.step s).machine.status = settled ((m.step s).answer.map .signal)
      rw [← answer_step, settled_answer]
  | run fuel =>
      obtain ⟨out', hrun, rfl⟩ := Option.map_eq_some_iff.mp hcall
      obtain ⟨n, hends, hmachine, -⟩ := exists_drive_iff.mp ⟨fuel, hrun⟩
      change out'.machine.status = settled (out'.answer.map fun _ => .done)
      rw [hmachine]
      generalize (m.restart.steps s n).machine.status = status at hends ⊢
      generalize out'.answer = answer at hends ⊢
      cases status with
      | ready => cases hends
      | stopped =>
          cases hends
          rfl
      | faulted fault =>
          cases hends
          rfl

/-- **The status after calls** is that of the last answer, and without one it stays.
Every call has an answer. -/
theorem status_of_calls {calls : List (Call × (σ → σ))} {after : Calls σ}
    (hcalls : m.calls s calls = some after) :
    after.sights.length = calls.length ∧
      after.machine.status = (after.sights.getLast?.map (settled ·.answer)).getD m.status := by
  induction calls generalizing m s after with
  | nil =>
      cases hcalls
      exact ⟨rfl, rfl⟩
  | cons first rest ih =>
      obtain ⟨out, after', hcall, hrest, rfl⟩ := calls_cons_eq_some_iff.mp hcalls
      obtain ⟨hlength, hstatus⟩ := ih hrest
      refine ⟨congrArg Nat.succ hlength, ?_⟩
      dsimp only
      rw [hstatus, status_of_call hcall, List.getLast?_cons]
      cases after'.sights.getLast? with
      | none => rfl
      | some last => rfl

/-- If calls change a machine that is not ready, there is a run among them. -/
lemma exists_run_of_calls (h : m.status ≠ .ready) {calls : List (Call × (σ → σ))}
    {after : Calls σ} (hcalls : m.calls s calls = some after) (hne : after.machine ≠ m) :
    ∃ fuel prepare, (Call.run fuel, prepare) ∈ calls := by
  induction calls generalizing s after with
  | nil =>
      cases hcalls
      exact absurd rfl hne
  | cons first rest ih =>
      obtain ⟨call, prepare⟩ := first
      cases call with
      | run fuel => exact ⟨fuel, prepare, List.mem_cons_self⟩
      | step =>
          obtain ⟨out, after', hcall, hrest, rfl⟩ := calls_cons_eq_some_iff.mp hcalls
          cases hcall
          rw [step_of_not_ready h] at hrest
          obtain ⟨fuel, prepare', hrun⟩ := ih hrest hne
          exact ⟨fuel, prepare', List.mem_cons_of_mem _ hrun⟩

/-- A step that does not fault leaves the status that it has answered, which is not a
fault. -/
lemma status_of_step_of_ok {signal : Signal} (hanswer : (m.step s).answer = .ok signal) :
    (m.step s).machine.status = signal.status ∧ ∀ fault, signal.status ≠ .faulted fault := by
  refine ⟨?_, fun fault => by cases signal <;> simp [Signal.status]⟩
  have hcall : m.call s .step = some ((m.step s).map .signal) := rfl
  have hstatus : (m.step s).machine.status = settled ((m.step s).answer.map .signal) :=
    status_of_call hcall
  rw [hstatus, hanswer]
  rfl

/-! ### Where a program stops -/

variable {i : Instruction} {next : ℕ}

/-- Putting a word on the stack does not end a program. -/
lemma pushing_ne_none {v : Word} : m.pushing v next ≠ .ok none := by
  rw [pushing]
  split_ifs <;> simp

/-- Neither does an operation on two words. -/
lemma combining_ne_none (op : Arithmetic) : m.combining op next ≠ .ok none := by
  rw [combining]
  rcases m.stack with _ | ⟨upper, _ | ⟨lower, rest⟩⟩
  · simp
  · simp
  · dsimp only
    cases op.result? lower upper <;> simp

/-- Neither does a jump. -/
lemma jumping_ne_none {destination : Except Fault ℕ} : m.jumping destination ≠ .ok none := by
  cases destination <;> simp [jumping]

/-- **Only a `STOP` ends a program.** -/
lemma eq_stop_of_effect (he : m.effect i next = .ok none) : i = .stop := by
  cases i with
  | stop => rfl
  | nop => cases he
  | push v => exact absurd he pushing_ne_none
  | pop =>
      rw [effect] at he
      cases hs : m.stack <;> simp [hs] at he
  | load r =>
      rw [effect] at he
      cases hr : m.register? r with
      | none => simp [hr] at he
      | some v =>
          rw [hr] at he
          exact absurd he pushing_ne_none
  | store r =>
      rw [effect] at he
      split_ifs at he
      cases hs : m.stack <;> simp [hs] at he
  | jmp target => exact absurd he jumping_ne_none
  | jz target => exact absurd he jumping_ne_none
  | jnz target => exact absurd he jumping_ne_none
  | add => exact absurd he (combining_ne_none .add)
  | sub => exact absurd he (combining_ne_none .sub)
  | mul => exact absurd he (combining_ne_none .mul)
  | div => exact absurd he (combining_ne_none .div)
  | print =>
      rw [effect] at he
      cases hs : m.stack <;> simp [hs] at he

/-- If a machine has stopped, it stands at a `STOP`. -/
def StopsAtStop (m : Machine) : Prop :=
  m.status = .stopped → Instruction.stop.StandsAt m.code.toList m.ip

/-- A machine whose program ends stands at a `STOP`. -/
lemma standsAt_stop_of_nextEffect (h : m.WellFormed) (he : m.nextEffect = .ok none) :
    Instruction.stop.StandsAt m.code.toList m.ip := by
  rw [nextEffect] at he
  cases hfetch : m.fetch with
  | error fault => simp [hfetch] at he
  | ok found =>
      obtain ⟨i, next⟩ := found
      simp only [hfetch] at he
      obtain rfl := eq_stop_of_effect he
      exact standsAt_of_fetch h hfetch

/-- A step stops at a `STOP`, or does not stop. -/
lemma StopsAtStop.step (hm : m.StopsAtStop) (h : m.WellFormed) (s : σ) :
    (m.step s).machine.StopsAtStop := by
  intro hstatus
  by_cases hready : m.status = .ready
  · cases transition_step h hready s with
    | stop he hout =>
        rw [hout]
        change Instruction.stop.StandsAt m.code.toList m.ip
        exact standsAt_stop_of_nextEffect h he
    | fault _ hout => simp [hout, withStatus] at hstatus
    | proceed _ _ hout => simp [hout, after, hready] at hstatus
    | print _ _ _ hout => simp [hout, after, hready] at hstatus
    | refuse _ _ _ hout => simp [hout, withStatus] at hstatus
  · rw [step_of_not_ready hready] at hstatus ⊢
    exact hm hstatus

variable {capacity limits : Limits} {program : Bytes}

/-- For life, a machine that has stopped stands at a `STOP`. -/
theorem Life.stopsAtStop (h : Life capacity limits program m) : m.StopsAtStop := by
  let P (m : Machine) : Prop := m.WellFormed ∧ m.StopsAtStop
  have hload : ∀ m, Machine.load capacity limits program = .ok m → P m := by
    intro m hm
    refine ⟨.of_load hm, fun hstatus => ?_⟩
    rw [(load_eq_ok_iff.mp hm).2.2] at hstatus
    cases hstatus
  have hrestart : ∀ m, P m → P m.restart := fun m hm =>
    ⟨hm.1.restart, fun hstatus => by cases hstatus⟩
  have hlife : P m := h.induction hload hrestart fun m s hm => ⟨hm.1.step s, hm.2.step hm.1 s⟩
  exact hlife.2

/-- For life, a machine that has stopped stands in its memory at the byte of a `STOP`. -/
lemma Life.getElem?_ip_of_stopped (h : Life capacity limits program m)
    (hstopped : m.status = .stopped) :
    m.ip < limits.memorySize ∧
      (program.toList ++ List.replicate (limits.memorySize - program.size) 0)[m.ip]? = some 13 := by
  have hstop := (h.stopsAtStop hstopped).getElem?_eq
  rw [h.toList_code] at hstop
  have hfits := h.fits.2
  have hlt := (List.getElem?_eq_some_iff.mp hstop).1
  simp only [Reference.Environment.of, List.length_append, List.length_replicate,
    Array.length_toList] at hlt
  exact ⟨by omega, hstop⟩

/-! ### Status and answers -/

/-- **Status and answers agree**: load a program, and make any calls that all come to an
answer. The machine is ready exactly if there were no calls or the last one was a step
that has answered so, it has stopped exactly if the last call has answered this, as a
step or as a run that is done, and its fault is the one that the last call has answered.
A step that does not answer with a fault leaves none behind. A machine that is not ready
gives one answer to any number of steps, with any sink, and neither changes; if calls do
change it, there is a run among them. A machine that has stopped stands in its memory at
the byte of a `STOP`. -/
theorem status_is_the_last_answer {m : Machine} (hload : load capacity limits program = .ok m)
    {σ : Type} [Sink σ] (s : σ) (calls : List (Call × (σ → σ))) {after : Calls σ}
    (hcalls : m.calls s calls = some after) :
    let now := after.machine
    let last? := after.sights.getLast?.map Sight.answer
    after.sights.length = calls.length ∧
    (now.status = .ready ↔ calls = [] ∨ last? = some (.ok (.signal .ready))) ∧
    (now.status = .stopped ↔ last? = some (.ok (.signal .stopped)) ∨ last? = some (.ok .done)) ∧
    (∀ fault, now.status = .faulted fault ↔ last? = some (.error fault)) ∧
    (∀ {τ : Type} [Sink τ] (t : τ) (signal : Signal), (now.step t).answer = .ok signal →
      (now.step t).machine.status = signal.status ∧ ∀ fault, signal.status ≠ .faulted fault) ∧
    (now.status ≠ .ready →
      (∀ {τ : Type} [Sink τ] (t : τ) (n : ℕ),
        now.steps t n = ⟨List.replicate n now.status.answer, now, t⟩) ∧
      ∀ further later, now.calls after.sink further = some later → later.machine ≠ now →
        ∃ fuel prepare, (Call.run fuel, prepare) ∈ further) ∧
    (now.status = .stopped → now.ip < limits.memorySize ∧
      (program.toList ++ List.replicate (limits.memorySize - program.size) 0)[now.ip]?
        = some 13) := by
  intro now last?
  have hlife : Life capacity limits program now := (Life.load hload).calls hcalls
  have hready : m.status = .ready := by
    rw [(load_eq_ok_iff.mp hload).2.2]
    rfl
  obtain ⟨hlength, hstatus⟩ := status_of_calls hcalls
  have hnow : now.status = (last?.map settled).getD .ready := by
    rw [Option.map_map, ← hready]
    exact hstatus
  have hnone : last? = none ↔ calls = [] := by
    rw [Option.map_eq_none_iff, List.getLast?_eq_none_iff, ← List.length_eq_zero_iff, hlength,
      List.length_eq_zero_iff]
  refine ⟨hlength, ?_, ?_, fun fault => ?_, fun t signal => status_of_step_of_ok,
    fun hnot => ⟨fun t n => steps_of_not_ready hnot t n,
      fun further later => exists_run_of_calls hnot⟩,
    hlife.getElem?_ip_of_stopped⟩
  · rw [hnow, ← hnone]
    cases last? with
    | none => simp
    | some answer => simp [settled_eq_ready_iff]
  · rw [hnow]
    cases last? with
    | none => simp
    | some answer => simp [settled_eq_stopped_iff]
  · rw [hnow]
    cases last? with
    | none => simp
    | some answer => simp [settled_eq_faulted_iff]

/-- `LOAD r0`, `PUSH 1` and `STORE r0`, a jump to the end if the register was zero, and two
times `POP`. The first run stops and the second one finds the stack empty. A step behind
either of them answers the same again. -/
theorem status_is_the_last_answer_of_two_runs :
    let program : Bytes := #[3, 0, 1, 1, 0, 0, 0, 4, 0, 6, 14, 0, 2, 2, 13]
    let m := fresh ⟨8, 4, 16⟩ ⟨2, 1, 15⟩ program
    (∃ after, m.calls (Tape.blank 0) [(.run 9, id), (.step, id)] = some after ∧
      after.machine.status = .stopped ∧ after.machine.ip = 14 ∧
      (after.machine.steps after.sink 2).answers = [.ok .stopped, .ok .stopped]) ∧
    ∃ after, m.calls (Tape.blank 0) [(.run 9, id), (.step, id), (.run 9, id)] = some after ∧
      after.machine.status = .faulted (.stackUnderflow .pop 13 1 0) := by
  intro program m
  have hload : load ⟨8, 4, 16⟩ ⟨2, 1, 15⟩ program = .ok m :=
    load_eq_ok_iff.mpr ⟨fun r => by cases r <;> decide, by decide, rfl⟩
  have hfirst : (m.calls (Tape.blank 0) [(.run 9, id), (.step, id)]).map
      (fun after => (after.sights.getLast?.map Sight.answer, after.machine.ip))
        = some (some (.ok (.signal .stopped)), 14) := by decide +kernel
  have hsecond : (m.calls (Tape.blank 0) [(.run 9, id), (.step, id), (.run 9, id)]).map
      (fun after => after.sights.getLast?.map Sight.answer)
        = some (some (.error (.stackUnderflow .pop 13 1 0))) := by decide +kernel
  obtain ⟨after, hafter, hlast⟩ := Option.map_eq_some_iff.mp hfirst
  obtain ⟨hanswer, hip⟩ := Prod.mk.inj hlast
  obtain ⟨after', hafter', hanswer'⟩ := Option.map_eq_some_iff.mp hsecond
  obtain ⟨-, -, hstopped, -, -, hsame, -⟩ := status_is_the_last_answer hload _ _ hafter
  obtain ⟨-, -, -, hfaulted, -⟩ := status_is_the_last_answer hload _ _ hafter'
  have hstatus := hstopped.mpr (.inl hanswer)
  refine ⟨⟨after, hafter, hstatus, hip, ?_⟩, after', hafter', (hfaulted _).mpr hanswer'⟩
  rw [(hsame (by simp [hstatus])).1, hstatus]
  rfl

end Bytecode.Machine
