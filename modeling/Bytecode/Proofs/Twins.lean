/-
Machines that differ in their storage, or in zeros at the end of their
programs.

* `Machine.Twins`: machines that stand at the same place under the same limits,
  with the same memory as far as the limit goes;
* `bisimulation_twins`: no calls tell them apart;
* `storage_is_not_seen` (**only the limits count**): the capacities of the
  storage and zeros at the end of the program are not seen by any calls.
-/
import Mathlib
import Bytecode.Proofs.Calls
import Bytecode.Proofs.Widening

namespace Bytecode.Machine

/-- Machines that stand at the same place under the same limits, with the same
memory up to the limit. The storage of either may be larger. -/
structure Twins (m m' : Machine) : Prop where
  wellFormed : m.WellFormed
  wellFormed' : m'.WellFormed
  widens : Widens m m'
  limits_eq : m'.limits = m.limits

variable {m m' : Machine}

/-- Twins start their programs again as twins. -/
lemma Twins.restart (h : Twins m m') : Twins m.restart m'.restart where
  wellFormed := h.wellFormed.restart
  wellFormed' := h.wellFormed'.restart
  widens := { h.widens with ip_eq := rfl, stack_eq := rfl, status_eq := rfl }
  limits_eq := h.limits_eq

/-- A step of twins is the same on both sides: no limit was raised. -/
lemma Twins.step {σ : Type} [Sink σ] (h : Twins m m') (s : σ) :
    Outcome.Alike Twins Eq (m.step s) (m'.step s) := by
  rcases h.widens.step h.wellFormed h.wellFormed' s with halike | ⟨fault, r, -, -, hlt⟩
  · refine ⟨halike.answer_eq, ⟨h.wellFormed.step s, h.wellFormed'.step s, halike.machine, ?_⟩,
      halike.sink⟩
    calc (m'.step s).machine.limits = m'.limits := (sameStorage_step h.wellFormed' s).limits_eq
      _ = m.limits := h.limits_eq
      _ = (m.step s).machine.limits := (sameStorage_step h.wellFormed s).limits_eq.symm
  · rw [h.limits_eq] at hlt
    exact absurd hlt (lt_irrefl _)

/-- Twins have the same registers in view. -/
lemma Twins.visibleRegisters_eq (h : Twins m m') : m'.visibleRegisters = m.visibleRegisters :=
  visibleRegisters_ext h.wellFormed.registerCount_le h.wellFormed'.registerCount_le h.limits_eq
    h.widens.register_eq

/-- **No calls tell twins apart.** -/
theorem bisimulation_twins : Bisimulation Twins where
  step s h := h.step s
  restart h := h.restart
  ip_eq h := h.widens.ip_eq
  stack_eq h := h.widens.stack_eq
  visibleRegisters_eq h := h.visibleRegisters_eq
  status_eq h := h.widens.status_eq

variable {capacity capacity' limits : Limits} {program : Bytes} {k : ℕ}

/-- Zeros behind a program are zeros of the memory. -/
lemma memory_append_zeros (h : program.size + k ≤ limits.memorySize) :
    (Reference.Environment.of limits (program ++ Array.replicate k 0)).memory
      = (Reference.Environment.of limits program).memory := by
  have hzeros : limits.memorySize - program.size
      = k + (limits.memorySize - (program.size + k)) := by omega
  simp only [Reference.Environment.of, Array.toList_append, Array.toList_replicate,
    Array.size_append, Array.size_replicate, List.append_assoc, hzeros,
    List.replicate_append_replicate]

/-- Machines of any storage that have just loaded a program, the second one with
zeros behind it. -/
lemma twins_of_load (hload : load capacity limits program = .ok m)
    (hload' : load capacity' limits (program ++ Array.replicate k 0) = .ok m')
    (h : program.size + k ≤ limits.memorySize) : Twins m m' where
  wellFormed := .of_load hload
  wellFormed' := .of_load hload'
  widens := by
    refine widens_of_load hload hload' (fun _ => le_rfl) ?_
    rw [memory_append_zeros h]
  limits_eq := by
    obtain ⟨-, -, rfl⟩ := load_eq_ok_iff.mp hload
    obtain ⟨-, -, rfl⟩ := load_eq_ok_iff.mp hload'
    rfl

/-- **Only the limits count**: under limits that fit two capacities, a program
is loaded into storage of the first, and with zeros behind it, as long as it
fits the limit of the memory, into storage of the second. Whatever calls are
made and whatever is done to the sinks in between, the same is seen of both:
the answers with all faults, the instruction pointer, the stack, the registers
in view, the status and the sink. After any calls a run ends on the one exactly
if it ends on the other. -/
theorem storage_is_not_seen (hlimits : limits.check capacity = .ok ())
    (hlimits' : limits.check capacity' = .ok ()) (hsize : program.size + k ≤ limits.memorySize) :
    ∃ m m', load capacity limits program = .ok m ∧
      load capacity' limits (program ++ Array.replicate k 0) = .ok m' ∧
      ∀ {σ : Type} [Sink σ] (s : σ) (calls : List (Call × (σ → σ))),
        (m'.calls s calls).map (·.sights) = (m.calls s calls).map (·.sights) ∧
          ∀ after after', m.calls s calls = some after → m'.calls s calls = some after' →
            ∀ t : σ, (∃ out, after'.machine.Returns t out) ↔
              ∃ out, after.machine.Returns t out := by
  have hload := load_eq_ok_iff.mpr
    ⟨Limits.check_eq_ok_iff.mp hlimits, (Nat.le_add_right _ _).trans hsize, rfl⟩
  have hload' := load_eq_ok_iff.mpr ⟨Limits.check_eq_ok_iff.mp hlimits',
    show (program ++ Array.replicate k 0).size ≤ limits.memorySize by simpa using hsize, rfl⟩
  have htwins := twins_of_load hload hload' hsize
  refine ⟨_, _, hload, hload', fun {σ} _ s calls => ?_⟩
  have hcalls := bisimulation_twins.calls htwins s calls
  generalize (fresh capacity limits program).calls s calls = after? at hcalls ⊢
  generalize (fresh capacity' limits (program ++ Array.replicate k 0)).calls s calls = after?'
    at hcalls ⊢
  cases hcalls with
  | none => exact ⟨rfl, fun after after' hafter => by cases hafter⟩
  | some halike =>
      refine ⟨congrArg some halike.sights_eq, fun after after' hafter hafter' t => ?_⟩
      cases hafter
      cases hafter'
      exact bisimulation_twins.returns_iff halike.machine t

/-- `PUSH 5`, `STORE r1`, `LOAD r1`, `PRINT` and `STOP` in storage of another
size and with two zeros behind it: a step, a run and a run again, between which
the tape is erased. -/
theorem storage_is_not_seen_by_two_runs :
    ∃ m m', load ⟨2, 2, 16⟩ ⟨1, 2, 13⟩ #[1, 5, 0, 0, 0, 4, 1, 3, 1, 12, 13] = .ok m ∧
      load ⟨8, 4, 256⟩ ⟨1, 2, 13⟩ #[1, 5, 0, 0, 0, 4, 1, 3, 1, 12, 13, 0, 0] = .ok m' ∧
      let calls : List (Call × (Tape → Tape)) :=
        [(.step, id), (.run 9, id), (.run 9, id), (.run 9, Tape.erase)]
      ((m'.calls (Tape.blank 1) calls).map (·.sights)).map
          (List.map fun sight => (sight.answer, sight.sink.words)) =
        some [(.ok (.signal .ready), #[]), (.ok .done, #[5]),
          (.error (.outputRefused 9), #[5]), (.ok .done, #[5])] := by
  have hlimits : Limits.check ⟨1, 2, 13⟩ ⟨2, 2, 16⟩ = .ok () := by decide
  have hlimits' : Limits.check ⟨1, 2, 13⟩ ⟨8, 4, 256⟩ = .ok () := by decide
  obtain ⟨m, m', hload, hload', hcalls⟩ :=
    @storage_is_not_seen ⟨2, 2, 16⟩ ⟨8, 4, 256⟩ ⟨1, 2, 13⟩
      #[1, 5, 0, 0, 0, 4, 1, 3, 1, 12, 13] 2 hlimits hlimits' (by decide)
  refine ⟨m, m', hload, hload', ?_⟩
  obtain ⟨-, -, rfl⟩ := load_eq_ok_iff.mp hload
  intro calls
  rw [(hcalls (Tape.blank 1) calls).1]
  decide +kernel

end Bytecode.Machine
