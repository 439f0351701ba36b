/-
What is found along steps and calls, in order.

* `Machine.along`: something may be found before each of the first steps;
* `Machine.alongCalls`: the same before each step of several calls;
* `steps_along`, `calls_along` (**the chronicle of a life**): what holds of a machine and
  of all that has been found, and is kept by a restart and by every step, holds behind
  several steps and behind several calls.
-/
import Mathlib
import Bytecode.Proofs.Calls

namespace Bytecode.Machine

variable {σ : Type} [Sink σ] {α : Type} {f : Machine → σ → Option α} {m : Machine} {s : σ}

/-- What is found before the first steps. -/
def along (f : Machine → σ → Option α) (m : Machine) (s : σ) (n : ℕ) : List α :=
  (List.range n).filterMap fun k => f (m.steps s k).machine (m.steps s k).sink

/-- What is found before the steps of a call. A run begins with a restart. -/
def alongCall (f : Machine → σ → Option α) (m : Machine) (s : σ) : Call → List α
  | .step => (f m s).toList
  | .run fuel => m.restart.along f s fuel

/-- What is found before the steps of several calls. -/
def alongCalls (f : Machine → σ → Option α) (m : Machine) (s : σ) :
    List (Call × (σ → σ)) → List α
  | [] => []
  | (call, prepare) :: rest =>
    m.alongCall f (prepare s) call ++
      ((m.call (prepare s) call).elim [] fun out => out.machine.alongCalls f out.sink rest)

/-- What is found before one more step. -/
lemma along_succ (f : Machine → σ → Option α) (m : Machine) (s : σ) (n : ℕ) :
    m.along f s (n + 1) =
      m.along f s n ++ (f (m.steps s n).machine (m.steps s n).sink).toList := by
  rw [along, List.range_succ, List.filterMap_append, ← along]
  cases hfound : f (m.steps s n).machine (m.steps s n).sink <;> simp [hfound]

section Induction

variable {P : List α → Machine → Prop} {found : List α}

/-- **Along steps**: what every step keeps, together with all that has been found. -/
theorem steps_along
    (hstep : ∀ found m (s : σ), P found m → P (found ++ (f m s).toList) (m.step s).machine)
    (h : P found m) (s : σ) (n : ℕ) : P (found ++ m.along f s n) (m.steps s n).machine := by
  induction n with
  | zero =>
      rw [along, List.range_zero, List.filterMap_nil, List.append_nil]
      exact h
  | succ n ih =>
      rw [along_succ, ← List.append_assoc]
      exact hstep _ _ _ ih

/-- **Along calls**: what a restart and every step keep, together with all that has been
found. -/
theorem calls_along (hrestart : ∀ found m, P found m → P found m.restart)
    (hstep : ∀ found m (s : σ), P found m → P (found ++ (f m s).toList) (m.step s).machine)
    (h : P found m) {calls : List (Call × (σ → σ))} {after : Calls σ}
    (hcalls : m.calls s calls = some after) :
    P (found ++ m.alongCalls f s calls) after.machine := by
  induction calls generalizing found m s after with
  | nil =>
      cases hcalls
      rw [alongCalls, List.append_nil]
      exact h
  | cons first rest ih =>
      obtain ⟨call, prepare⟩ := first
      obtain ⟨out, after', hcall, hrest, rfl⟩ := calls_cons_eq_some_iff.mp hcalls
      rw [alongCalls, hcall, Option.elim_some, ← List.append_assoc]
      have hout : P (found ++ m.alongCall f (prepare s) call) out.machine := by
        cases call with
        | step =>
            cases hcall
            exact hstep _ _ _ h
        | run fuel =>
            obtain ⟨out', hrun, rfl⟩ := Option.map_eq_some_iff.mp hcall
            change P _ out'.machine
            rw [← (steps_of_drive hrun).1]
            exact steps_along hstep (hrestart _ _ h) (prepare s) fuel
      have hlater := ih hout hrest
      exact hlater

end Induction

end Bytecode.Machine
