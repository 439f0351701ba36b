/-
Two machines in lock step, each with a sink of its own.

* `Machine.Move`: what a step makes of a machine, whatever machine it is;
* `Sink.Matches`: sinks, of one type or of two, that take the same words and
  refuse the same words;
* `exists_move_step` (**the same step on both sides**): machines whose next
  instructions have the same effect give the same answer and make the same
  move, and matching sinks stay matched;
* `drive_alike`: what every step keeps on both sides is kept until both are
  driven to their ends, after the same number of steps;
* `drive_alike_of_steps`: the same of what several steps lead to;
* `run_matches`: one machine runs alike with either of two sinks that match.
-/
import Mathlib
import Bytecode.Proofs.Steps

namespace Bytecode

/-! ### Sinks that match -/

/-- Both sinks have taken a word, or both have refused it, and they are
related again. -/
inductive Sink.Matched {σ τ : Type} (R : σ → τ → Prop) : Except σ σ → Except τ τ → Prop
  | taken {s : σ} {t : τ} (h : R s t) : Matched R (.ok s) (.ok t)
  | refused {s : σ} {t : τ} (h : R s t) : Matched R (.error s) (.error t)

/-- Related sinks take the same words and refuse the same words, and stay
related. -/
def Sink.Matches {σ τ : Type} [Sink σ] [Sink τ] (R : σ → τ → Prop) : Prop :=
  ∀ s t v, R s t → Matched R (Sink.print s v) (Sink.print t v)

/-- Equal sinks match. -/
lemma Sink.matches_eq {σ : Type} [Sink σ] : Sink.Matches (σ := σ) Eq := by
  rintro s _ v rfl
  cases Sink.print s v with
  | ok s' => exact .taken rfl
  | error s' => exact .refused rfl

/-! ### Outcomes that are alike -/

/-- The same answer, with machines and sinks that are related. -/
structure Outcome.Alike {α σ τ : Type} (Q : Machine → Machine → Prop) (R : σ → τ → Prop)
    (out : Outcome α σ) (out' : Outcome α τ) : Prop where
  answer_eq : out'.answer = out.answer
  machine : Q out.machine out'.machine
  sink : R out.sink out'.sink

namespace Machine

variable {σ τ : Type} [Sink σ] [Sink τ] {R : σ → τ → Prop} {m m' : Machine}

/-! ### One step -/

/-- What a step makes of a machine. -/
inductive Move where
  /-- An instruction has an effect, and the machine goes on. -/
  | proceed (e : Effect)
  /-- Nothing but the status is set. -/
  | settle (status : Status)

/-- The machine after a move. -/
def moved (m : Machine) : Move → Machine
  | .proceed e => m.after e
  | .settle status => m.withStatus status

/-- **The same step on both sides**: machines of one status, whose next
instructions have the same effect at the same offset, give the same answer and
make the same move. What is printed goes to both sinks, which match as before. -/
theorem exists_move_step (h : m.WellFormed) (h' : m'.WellFormed)
    (hstatus : m'.status = m.status) (hip : m'.ip = m.ip)
    (hnext : m.status = .ready → m'.nextEffect = m.nextEffect)
    (hR : Sink.Matches R) {s : σ} {t : τ} (hst : R s t) :
    ∃ answer move s' t', m.step s = ⟨answer, m.moved move, s'⟩ ∧
      m'.step t = ⟨answer, m'.moved move, t'⟩ ∧ R s' t' := by
  by_cases hready : m.status = .ready
  · have hready' : m'.status = .ready := hstatus.trans hready
    rw [step_of_ready h hready, step_of_ready h' hready', hnext hready]
    cases m.nextEffect with
    | error fault => exact ⟨_, .settle (.faulted fault), s, t, rfl, rfl, hst⟩
    | ok effect? =>
        cases effect? with
        | none => exact ⟨_, .settle .stopped, s, t, rfl, rfl, hst⟩
        | some e =>
            rw [realise, realise]
            cases e.printed? with
            | none =>
                refine ⟨.ok .ready, .proceed e, s, t, ?_, ?_, hst⟩
                · exact congrArg (Outcome.mk _ · s) (withStatus_after hready e)
                · exact congrArg (Outcome.mk _ · t) (withStatus_after hready' e)
            | some v =>
                dsimp only
                have hmatched := hR s t v hst
                generalize Sink.print s v = printed at hmatched ⊢
                generalize Sink.print t v = printed' at hmatched ⊢
                cases hmatched with
                | taken hst' =>
                    refine ⟨.ok .ready, .proceed e, _, _, ?_, ?_, hst'⟩
                    · exact congrArg (Outcome.mk _ · _) (withStatus_after hready e)
                    · exact congrArg (Outcome.mk _ · _) (withStatus_after hready' e)
                | refused hst' =>
                    rw [hip]
                    exact ⟨_, .settle _, _, _, rfl, rfl, hst'⟩
  · have hready' : m'.status ≠ .ready := fun h => hready (hstatus.symm.trans h)
    rw [step_of_not_ready hready, step_of_not_ready hready', hstatus]
    refine ⟨_, .settle m.status, s, t, rfl, ?_, hst⟩
    rw [← hstatus]
    rfl

/-! ### Until the end -/

/-- What every step keeps on both sides is kept until the end: both machines
are driven to it after the same number of steps, or neither is. -/
theorem drive_alike {Q : Machine → Machine → Prop}
    (hstep : ∀ m m' s t, Q m m' → R s t → Outcome.Alike Q R (m.step s) (m'.step t)) (fuel : ℕ)
    {s : σ} {t : τ} (hQ : Q m m') (hst : R s t) :
    Option.Rel (Outcome.Alike Q R) (m.drive fuel s) (m'.drive fuel t) := by
  induction fuel generalizing m m' s t with
  | zero => exact .none
  | succ fuel ih =>
      obtain ⟨hanswer, hmachine, hsink⟩ := hstep m m' s t hQ hst
      rw [drive_succ, drive_succ, hanswer]
      cases (m.step s).answer with
      | error fault => exact .some ⟨rfl, hmachine, hsink⟩
      | ok signal =>
          cases signal with
          | ready => exact ih hmachine hsink
          | stopped => exact .some ⟨rfl, hmachine, hsink⟩

/-- Machines are driven alike if their steps give the same answers, and what
they come to is related after any number of them. -/
theorem drive_alike_of_steps {Q : Machine → Machine → Prop} {fuel : ℕ} {s : σ} {t : τ}
    (h : ∀ n ≤ fuel, (m'.steps t n).answers = (m.steps s n).answers ∧
      Q (m.steps s n).machine (m'.steps t n).machine ∧ R (m.steps s n).sink (m'.steps t n).sink) :
    Option.Rel (Outcome.Alike Q R) (m.drive fuel s) (m'.drive fuel t) := by
  induction fuel generalizing m m' s t with
  | zero => exact .none
  | succ fuel ih =>
      obtain ⟨hanswers, hmachine, hsink⟩ := h 1 (Nat.succ_le_succ (Nat.zero_le fuel))
      have hanswer : (m'.step t).answer = (m.step s).answer := List.singleton_injective hanswers
      rw [drive_succ, drive_succ, hanswer]
      cases (m.step s).answer with
      | error fault => exact .some ⟨rfl, hmachine, hsink⟩
      | ok signal =>
          cases signal with
          | stopped => exact .some ⟨rfl, hmachine, hsink⟩
          | ready =>
              refine ih fun n hn => ?_
              have hrest := h (n + 1) (Nat.succ_le_succ hn)
              rw [steps_succ', steps_succ'] at hrest
              exact ⟨(List.cons.inj hrest.1).2, hrest.2⟩

/-- **One machine with two sinks**: if they match, the machine runs alike with
either of them. -/
theorem run_matches (h : m.WellFormed) (hR : Sink.Matches R) {s : σ} {t : τ} (hst : R s t)
    (fuel : ℕ) :
    Option.Rel (Outcome.Alike (fun m m' => m.WellFormed ∧ m' = m) R) (m.run fuel s)
      (m.run fuel t) := by
  refine drive_alike (fun m m' s t hm hst => ?_) fuel ⟨h.restart, rfl⟩ hst
  obtain ⟨hm, rfl⟩ := hm
  obtain ⟨answer, move, s', t', hout, hout', hst'⟩ :=
    exists_move_step hm hm rfl rfl (fun _ => rfl) hR hst
  have hnext := hm.step s
  rw [hout] at hnext
  rw [hout, hout']
  exact ⟨rfl, ⟨hnext, rfl⟩, hst'⟩

end Machine

end Bytecode
