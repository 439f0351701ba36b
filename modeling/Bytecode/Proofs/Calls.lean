/-
What is asked of a loaded machine, call by call, and what is seen of it.

* `Machine.Call`: a step, or a run that may take so many steps;
* `Machine.calls`: several calls, one after the other, and what is seen after
  each. A run that takes more steps than it may has no answer, and neither have
  the calls behind it;
* `Life.calls`: a machine lives on through calls;
* `Machine.Bisimulation`: a relation between machines that every step and every
  restart keeps, and under which the same is seen of them;
* `Bisimulation.calls` (**the same is seen call by call**) and
  `Bisimulation.returns_iff`: machines that are so related are not told apart by
  any calls, and a run ends on one exactly if it ends on the other.
-/
import Mathlib
import Bytecode.Proofs.Lockstep
import Bytecode.Proofs.Steps

namespace Bytecode

/-- What is asked of a machine. -/
inductive Machine.Call where
  | step
  /-- A run that may take so many steps. -/
  | run (fuel : ℕ)
  deriving DecidableEq

/-- What a call answers if there is no fault. -/
inductive Machine.Reply where
  /-- A step has been taken. -/
  | signal (signal : Signal)
  /-- A run has come to its end. -/
  | done
  deriving DecidableEq

/-- What is seen of a machine and its sink after a call. -/
structure Sight (σ : Type) where
  answer : Except Fault Machine.Reply
  ip : ℕ
  stack : List Word
  registers : Array Word
  status : Status
  sink : σ

/-- What is seen after several calls in order, with the machine and the sink
after them. -/
structure Calls (σ : Type) where
  sights : List (Sight σ)
  machine : Machine
  sink : σ

/-- The outcome with another answer. -/
def Outcome.map {α β σ : Type} (f : α → β) (out : Outcome α σ) : Outcome β σ :=
  ⟨out.answer.map f, out.machine, out.sink⟩

/-- What is seen of an outcome. -/
def Outcome.sight {σ : Type} (out : Outcome Machine.Reply σ) : Sight σ where
  answer := out.answer
  ip := out.machine.ip
  stack := out.machine.stack
  registers := out.machine.visibleRegisters
  status := out.machine.status
  sink := out.sink

/-- Outcomes that are alike stay so with another answer. -/
lemma Outcome.Alike.map {α β σ τ : Type} {Q : Machine → Machine → Prop} {R : σ → τ → Prop}
    {out : Outcome α σ} {out' : Outcome α τ} (h : Outcome.Alike Q R out out') (f : α → β) :
    Outcome.Alike Q R (out.map f) (out'.map f) :=
  ⟨congrArg (Except.map f) h.answer_eq, h.machine, h.sink⟩

/-- The same is seen of both after several calls, and the machines are related
again. -/
structure Calls.Alike {σ : Type} (Q : Machine → Machine → Prop) (after after' : Calls σ) :
    Prop where
  sights_eq : after'.sights = after.sights
  machine : Q after.machine after'.machine
  sink_eq : after'.sink = after.sink

namespace Machine

variable {σ : Type} [Sink σ]

/-- One call, which has no answer if it is a run that takes more steps than it
may. -/
def call (m : Machine) (s : σ) : Call → Option (Outcome Reply σ)
  | .step => some ((m.step s).map .signal)
  | .run fuel => (m.run fuel s).map (Outcome.map fun _ => .done)

/-- Several calls, one after the other. What is done to the sink before a call
comes with the call. -/
def calls (m : Machine) (s : σ) : List (Call × (σ → σ)) → Option (Calls σ)
  | [] => some ⟨[], m, s⟩
  | (call, prepare) :: rest =>
    match m.call (prepare s) call with
    | none => none
    | some out =>
      (out.machine.calls out.sink rest).map fun after =>
        { after with sights := out.sight :: after.sights }

/-- Calls that all have an answer are a first one and others behind it. -/
lemma calls_cons_eq_some_iff {m : Machine} {s : σ} {call : Call} {prepare : σ → σ}
    {rest : List (Call × (σ → σ))} {after : Calls σ} :
    m.calls s ((call, prepare) :: rest) = some after ↔
      ∃ out after', m.call (prepare s) call = some out ∧
        out.machine.calls out.sink rest = some after' ∧
        after = { after' with sights := out.sight :: after'.sights } := by
  rw [Machine.calls]
  cases m.call (prepare s) call with
  | none => simp
  | some out => simp [eq_comm]

section Lives

variable {capacity limits : Limits} {program : Bytes} {m : Machine} {s : σ}

/-- A machine lives on through a call. -/
lemma Life.call (h : Life capacity limits program m) {call : Call} {out : Outcome Reply σ}
    (hcall : m.call s call = some out) : Life capacity limits program out.machine := by
  cases call with
  | step =>
      cases hcall
      exact .step s h
  | run fuel =>
      obtain ⟨out', hrun, rfl⟩ := Option.map_eq_some_iff.mp hcall
      exact .run s h hrun

/-- A machine lives on through calls. -/
lemma Life.calls (h : Life capacity limits program m) {calls : List (Call × (σ → σ))}
    {after : Calls σ} (hcalls : m.calls s calls = some after) :
    Life capacity limits program after.machine := by
  induction calls generalizing m s after with
  | nil =>
      cases hcalls
      exact h
  | cons first rest ih =>
      obtain ⟨out, after', hcall, hrest, rfl⟩ := calls_cons_eq_some_iff.mp hcalls
      have hlater := ih (h.call hcall) hrest
      exact hlater

end Lives

/-! ### Machines that are not told apart -/

/-- A relation between machines that every step and every restart keeps, and
under which the same is seen of both. -/
structure Bisimulation (Q : Machine → Machine → Prop) : Prop where
  step : ∀ {m m' : Machine} {σ : Type} [Sink σ] (s : σ), Q m m' →
    Outcome.Alike Q Eq (m.step s) (m'.step s)
  restart : ∀ {m m' : Machine}, Q m m' → Q m.restart m'.restart
  ip_eq : ∀ {m m' : Machine}, Q m m' → m'.ip = m.ip
  stack_eq : ∀ {m m' : Machine}, Q m m' → m'.stack = m.stack
  visibleRegisters_eq : ∀ {m m' : Machine}, Q m m' → m'.visibleRegisters = m.visibleRegisters
  status_eq : ∀ {m m' : Machine}, Q m m' → m'.status = m.status

variable {Q : Machine → Machine → Prop} {m m' : Machine}

/-- Both runs end after the same number of steps, or neither does. -/
lemma Bisimulation.run (hQ : Bisimulation Q) (h : Q m m') (fuel : ℕ) (s : σ) :
    Option.Rel (Outcome.Alike Q Eq) (m.run fuel s) (m'.run fuel s) := by
  refine drive_alike (fun m m' s t hm hst => ?_) fuel (hQ.restart h) rfl
  subst hst
  exact hQ.step s hm

/-- A run ends on one machine exactly if it ends on the other. -/
lemma Bisimulation.returns_iff (hQ : Bisimulation Q) (h : Q m m') (s : σ) :
    (∃ out, m'.Returns s out) ↔ ∃ out, m.Returns s out := by
  have hsome : ∀ fuel, (∃ out, m'.run fuel s = some out) ↔ ∃ out, m.run fuel s = some out := by
    intro fuel
    have hrel := hQ.run h fuel s
    generalize m.run fuel s = out? at hrel ⊢
    generalize m'.run fuel s = out?' at hrel ⊢
    cases hrel with
    | none => simp
    | some halike => simp
  simp only [Returns]
  rw [exists_comm, exists_comm (α := Outcome Unit σ)]
  exact exists_congr hsome

/-- The same is seen of outcomes that are alike. -/
lemma Bisimulation.sight_eq {τ : Type} (hQ : Bisimulation Q) {out out' : Outcome Reply τ}
    (h : Outcome.Alike Q Eq out out') : out'.sight = out.sight := by
  rw [Outcome.sight, Outcome.sight, h.answer_eq, hQ.ip_eq h.machine, hQ.stack_eq h.machine,
    hQ.visibleRegisters_eq h.machine, hQ.status_eq h.machine, h.sink]

/-- One call on both sides. -/
lemma Bisimulation.call (hQ : Bisimulation Q) (h : Q m m') (s : σ) (call : Call) :
    Option.Rel (Outcome.Alike Q Eq) (m.call s call) (m'.call s call) := by
  cases call with
  | step => exact .some ((hQ.step s h).map _)
  | run fuel =>
      have hrel := hQ.run h fuel s
      rw [Machine.call, Machine.call]
      generalize m.run fuel s = out? at hrel ⊢
      generalize m'.run fuel s = out?' at hrel ⊢
      cases hrel with
      | none => exact .none
      | some halike => exact .some (halike.map _)

/-- **The same is seen call by call** of machines that are related. -/
theorem Bisimulation.calls (hQ : Bisimulation Q) (h : Q m m') (s : σ)
    (calls : List (Call × (σ → σ))) :
    Option.Rel (Calls.Alike Q) (m.calls s calls) (m'.calls s calls) := by
  induction calls generalizing m m' s with
  | nil => exact .some ⟨rfl, h, rfl⟩
  | cons first rest ih =>
      obtain ⟨call, prepare⟩ := first
      have hrel := hQ.call h (prepare s) call
      rw [Machine.calls, Machine.calls]
      generalize m.call (prepare s) call = out? at hrel ⊢
      generalize m'.call (prepare s) call = out?' at hrel ⊢
      cases hrel with
      | none => exact .none
      | @some out out' halike =>
          have hrest := ih halike.machine out.sink
          have hsink : out'.sink = out.sink := halike.sink.symm
          dsimp only
          rw [hQ.sight_eq halike, hsink]
          generalize out.machine.calls out.sink rest = after? at hrest ⊢
          generalize out'.machine.calls out.sink rest = after?' at hrest ⊢
          cases hrest with
          | none => exact .none
          | some hafter =>
              exact .some ⟨congrArg (out.sight :: ·) hafter.sights_eq, hafter.machine,
                hafter.sink_eq⟩

end Machine

end Bytecode
