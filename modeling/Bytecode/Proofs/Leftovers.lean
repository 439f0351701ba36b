/-
What earlier runs leave in the registers.

* `masked_restart`: machines that start the same program differ at most in their
  registers;
* `leftovers_do_not_matter` (**no use of leftovers**): registers that a run does
  not load before it has set them do not influence it.
-/
import Mathlib
import Bytecode.Proofs.Footprint
import Bytecode.Proofs.Testimony

namespace Bytecode.Machine

variable {capacity capacity' limits : Limits} {program : Bytes} {m m' : Machine} {D : Set ℕ}

/-- Machines that have loaded the same program decode the same instructions, for
life. -/
lemma Life.decodeAt_eq (h : Life capacity limits program m) (h' : Life capacity' limits program m')
    (p : ℕ) : m'.code.decodeAt p = m.code.decodeAt p := by
  have hcode : m'.code.toList = m.code.toList := h'.toList_code.trans h.toList_code.symm
  refine Code.decodeAt_congr ?_ fun q _ _ => by rw [hcode]
  rw [← Code.length_toList, hcode, Code.length_toList]

/-- Machines that start the same program differ where their registers do. -/
lemma masked_restart (h : Life capacity limits program m) (h' : Life capacity' limits program m')
    (hview : ∀ k < limits.registerCount, k ∉ D →
      m'.visibleRegisters[k]? = m.visibleRegisters[k]?) : Masked D m.restart m'.restart where
  wellFormed := h.wellFormed.restart
  wellFormed' := h'.wellFormed.restart
  abreast := ⟨h'.sameStorage.limits_eq.trans h.sameStorage.limits_eq.symm, rfl, rfl, rfl⟩
  register_eq k hk hD := by
    have hlimits : m.limits = limits := h.sameStorage.limits_eq
    exact hview k (hlimits ▸ hk) hD

/-- **No use of leftovers**: let two machines have loaded the same program under
the same limits and been through any steps and runs, with registers that are the
same outside a set. Started again with the same sink, they give the same answers
and print the same words, with the same instruction pointer, stack and status,
as long as no register of the set is loaded before it has been set. Then
registers outside the set are the same after any number of steps, and so are
those that have been set; a register that has not been set is as it was on
either machine. If no register at all is loaded before it has been set, the runs
of both come to the same end, whatever their registers are. -/
theorem leftovers_do_not_matter (h : Life capacity limits program m)
    (h' : Life capacity' limits program m')
    (hview : ∀ k < limits.registerCount, k ∉ D →
      m'.visibleRegisters[k]? = m.visibleRegisters[k]?) {σ : Type} [Sink σ] (s : σ) :
    (∀ n, m.restart.LoadsOwn s D n →
      let after := m.restart.steps s n
      let after' := m'.restart.steps s n
      after'.answers = after.answers ∧ after'.sink = after.sink ∧
        Abreast after.machine after'.machine ∧
        ∀ k < limits.registerCount,
          (k ∉ D ∨ m.restart.StoredWithin s n k →
            after'.machine.visibleRegisters[k]? = after.machine.visibleRegisters[k]?) ∧
          (¬ m.restart.StoredWithin s n k →
            after.machine.visibleRegisters[k]? = m.visibleRegisters[k]? ∧
              after'.machine.visibleRegisters[k]? = m'.visibleRegisters[k]?)) ∧
      ∀ fuel, m.restart.LoadsOwn s Set.univ fuel →
        Option.Rel (Outcome.Alike Abreast Eq) (m.run fuel s) (m'.run fuel s) := by
  have hlimits : m.limits = limits := h.sameStorage.limits_eq
  have hlimits' : m'.limits = limits := h'.sameStorage.limits_eq
  have hdecode := h.decodeAt_eq h'
  constructor
  · intro n hload after after'
    obtain ⟨hanswers, hsink, hstored, hmasked⟩ :=
      (masked_restart h h' hview).steps (fun j _ _ => hdecode _) hload
    have hafter : after.machine.limits = limits :=
      (sameStorage_steps h.wellFormed.restart s n).limits_eq.trans hlimits
    refine ⟨hanswers, hsink, hmasked.abreast, fun k hk => ⟨fun heither => ?_, fun hnot => ?_⟩⟩
    · refine hmasked.register_eq k (by rwa [hafter]) ?_
      rintro ⟨hD, hnot⟩
      exact heither.elim (absurd hD) hnot
    · exact ⟨visibleRegisters_steps h.wellFormed.restart (hlimits ▸ hk) hnot,
        visibleRegisters_steps h'.wellFormed.restart (hlimits' ▸ hk)
          fun hset => hnot ((hstored k).mp hset)⟩
  · intro fuel hload
    have hmasked : Masked Set.univ m.restart m'.restart :=
      masked_restart h h' fun k _ hk => absurd (Set.mem_univ k) hk
    refine drive_alike_of_steps fun n hn => ?_
    obtain ⟨hanswers, hsink, -, hafter⟩ :=
      hmasked.steps (fun j _ _ => hdecode _) (hload.mono subset_rfl hn)
    exact ⟨hanswers, hafter.abreast, hsink.symm⟩

/-- `PUSH 5`, `STORE r0`, `LOAD r0`, `PRINT` and `STOP`: the first run leaves a
`5` in the register, which a second run does not see. -/
theorem leftovers_do_not_matter_of_stored :
    let program : Bytes := #[1, 5, 0, 0, 0, 4, 0, 3, 0, 12, 13]
    let m := fresh ⟨8, 4, 16⟩ ⟨2, 3, 12⟩ program
    let m' := (m.steps (Tape.blank 1) 5).machine
    m.visibleRegisters = #[0, 0, 0] ∧ m'.visibleRegisters = #[5, 0, 0] ∧
      (m'.restart.steps (Tape.blank 1) 1).machine.visibleRegisters[0]? = some 5 ∧
      (m'.restart.steps (Tape.blank 1) 5).sink.words = #[5] ∧
      Option.Rel (Outcome.Alike Abreast Eq) (m.run 5 (Tape.blank 1))
        (m'.run 5 (Tape.blank 1)) := by
  intro program m m'
  have hload : load ⟨8, 4, 16⟩ ⟨2, 3, 12⟩ program = .ok m :=
    load_eq_ok_iff.mpr ⟨fun r => by cases r <;> decide, by decide, rfl⟩
  have hlife' : Life ⟨8, 4, 16⟩ ⟨2, 3, 12⟩ program m' := (Life.load hload).steps (Tape.blank 1) 5
  have hview : m'.visibleRegisters = #[5, 0, 0] := by decide +kernel
  have hview₀ : m.visibleRegisters = #[0, 0, 0] := by decide +kernel
  -- the third step is the only one that loads, and the second one has stored
  have hloads : m.restart.LoadsOwn (Tape.blank 1) Set.univ 5 := by
    rintro j hj r ⟨-, next, hfetch⟩ -
    have hthird : ∀ j < 5, ((m.restart.steps (Tape.blank 1) j).machine.fetch.map
        fun found => found.1.opcode) = .ok .load → j = 2 := by decide +kernel
    have hfetched : (m.restart.steps (Tape.blank 1) 2).machine.fetch = .ok (.load 0, 9) := by
      decide +kernel
    obtain rfl := hthird j hj (by rw [hfetch]; rfl)
    rw [hfetched] at hfetch
    cases hfetch
    exact ⟨1, by decide, ⟨0, rfl, by decide +kernel, 7, by decide +kernel⟩, by decide +kernel⟩
  have hdiffer : ∀ k < 3, k ∉ ({0} : Set ℕ) →
      m'.visibleRegisters[k]? = m.visibleRegisters[k]? := by
    intro k hk hD
    rw [Set.mem_singleton_iff] at hD
    rw [hview, hview₀]
    interval_cases k
    · exact absurd rfl hD
    · rfl
    · rfl
  obtain ⟨hsteps, hrun⟩ :=
    leftovers_do_not_matter (.load hload) hlife' hdiffer (Tape.blank 1)
  obtain ⟨-, -, -, hkeeps⟩ := hsteps 1 (hloads.mono (Set.subset_univ _) (by decide))
  obtain ⟨-, hsink, -, -⟩ := hsteps 5 (hloads.mono (Set.subset_univ _) le_rfl)
  refine ⟨hview₀, hview, ?_, ?_, hrun 5 hloads⟩
  · have hnot : ¬ m.restart.StoredWithin (Tape.blank 1) 1 0 := by
      rintro ⟨j, hj, ⟨r, -, -, next, hfetch⟩, -⟩
      have hfirst : (m.restart.steps (Tape.blank 1) 0).machine.fetch = .ok (.push 5, 5) := by
        decide +kernel
      obtain rfl := Nat.lt_one_iff.mp hj
      rw [hfirst] at hfetch
      cases hfetch
    rw [((hkeeps 0 (by decide)).2 hnot).2, hview]
    rfl
  · rw [hsink]
    decide +kernel

end Bytecode.Machine
