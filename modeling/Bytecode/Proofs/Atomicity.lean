/-
Faults are atomic: an instruction that can not be executed leaves
everything as it was, although several of them change the machine before
the last check that could fail.

* `Sink.Steady`: sinks that stay as they are when they refuse a word, such
  as `Tape`;
* `fault_is_atomic`: a step that answers a fault changes the status of the
  machine to it and nothing else.
-/
import Mathlib
import Bytecode.Proofs.Life

namespace Bytecode

/-- A sink that refuses a word stays as it is. -/
def Sink.Steady (σ : Type) [Sink σ] : Prop :=
  ∀ (s : σ) (v : Word) (s' : σ), Sink.print s v = .error s' → s' = s

/-- A full tape stays as it is. -/
lemma Tape.steady : Sink.Steady Tape := by
  intro t v t' h
  change Tape.print t v = .error t' at h
  rw [Tape.print] at h
  split_ifs at h with hroom
  cases h
  rfl

namespace Machine

/-- **Faults are atomic**: if a step of a ready machine answers a fault,
the status of the machine becomes that fault, and its stack, registers,
instruction pointer, memory and limits stay. The sink stays as well, or it
has refused a word, which leaves a tape as it was. -/
theorem fault_is_atomic {capacity limits : Limits} {program : Bytes} {m : Machine}
    (h : Life capacity limits program m) (hready : m.status = .ready) {σ : Type} [Sink σ] (s : σ)
    {fault : Fault} (hfault : (m.step s).answer = .error fault) :
    (m.step s).machine = { m with status := .faulted fault } ∧
      ((m.step s).sink = s ∨
        ∃ v, Sink.print s v = .error (m.step s).sink ∧ fault = .outputRefused m.ip) ∧
      (Sink.Steady σ → (m.step s).sink = s) ∧ Sink.Steady Tape := by
  cases transition_step h.wellFormed hready s with
  | fault _ hout =>
      rw [hout] at hfault ⊢
      cases hfault
      exact ⟨rfl, .inl rfl, fun _ => rfl, Tape.steady⟩
  | stop _ hout => simp [hout] at hfault
  | proceed _ _ hout => simp [hout] at hfault
  | print _ _ _ hout => simp [hout] at hfault
  | refuse _ _ hsink hout =>
      rw [hout] at hfault ⊢
      cases hfault
      exact ⟨rfl, .inr ⟨_, hsink, rfl⟩, fun hsteady => hsteady _ _ _ hsink, Tape.steady⟩

/-- A full tape refuses the word that `PUSH 7` has put on the stack: it is
still there. -/
theorem fault_is_atomic_of_full_tape :
    let m := (fresh ⟨8, 4, 16⟩ ⟨2, 4, 6⟩ #[1, 7, 0, 0, 0, 12]).step (Tape.blank 0)
    (m.machine.step m.sink).answer = .error (.outputRefused 5) ∧
      (m.machine.step m.sink).machine =
        { m.machine with status := .faulted (.outputRefused 5) } ∧
      m.machine.stack = [7] ∧ (m.machine.step m.sink).sink = m.sink := by
  intro m
  have hload : load ⟨8, 4, 16⟩ ⟨2, 4, 6⟩ #[1, 7, 0, 0, 0, 12]
      = .ok (fresh ⟨8, 4, 16⟩ ⟨2, 4, 6⟩ #[1, 7, 0, 0, 0, 12]) :=
    load_eq_ok_iff.mpr ⟨fun r => by cases r <;> decide, by decide, rfl⟩
  have hready : m.machine.status = .ready := by decide +kernel
  have hfault : (m.machine.step m.sink).answer = .error (.outputRefused 5) := by
    decide +kernel
  have hlife : Life ⟨8, 4, 16⟩ ⟨2, 4, 6⟩ #[1, 7, 0, 0, 0, 12] m.machine :=
    .step (Tape.blank 0) (.load hload)
  have hatomic := fault_is_atomic hlife hready m.sink hfault
  exact ⟨hfault, hatomic.1, by decide +kernel, hatomic.2.2.1 Tape.steady⟩

end Machine

end Bytecode
