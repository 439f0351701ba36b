/-
Bytes that are not decoded.

* `Machine.Decodes`: the bytes that a step looks at: the opcode byte, and of the
  operand what lies below the limit of the memory;
* `masked_of_load`: machines that have just loaded programs differ in their code
  alone;
* `undecoded_bytes_do_not_matter` (**locality**): programs that agree on the
  bytes that the steps of one of them decode do the same.
-/
import Mathlib
import Bytecode.Proofs.Footprint

namespace Bytecode.Machine

variable {capacity capacity' limits : Limits} {P Q : Bytes} {m m' : Machine}

/-- Machines that nothing but their code tells apart. -/
structure SameState (m m' : Machine) : Prop extends Abreast m m' where
  visibleRegisters_eq : m'.visibleRegisters = m.visibleRegisters

/-- The next step looks at the byte at an offset. -/
def Decodes (m : Machine) (q : ℕ) : Prop :=
  m.status = .ready ∧ q < m.limits.memorySize ∧ m.code.Consults m.ip q

/-- Machines that have just loaded programs stand at the same place, with the
same registers. -/
lemma masked_of_load (hload : load capacity limits P = .ok m)
    (hload' : load capacity' limits Q = .ok m') : Masked ∅ m m' where
  wellFormed := .of_load hload
  wellFormed' := .of_load hload'
  abreast := by
    obtain ⟨-, -, rfl⟩ := load_eq_ok_iff.mp hload
    obtain ⟨-, -, rfl⟩ := load_eq_ok_iff.mp hload'
    exact ⟨rfl, rfl, rfl, rfl⟩
  register_eq k hk _ := by
    have hlimits : m.limits = limits := by rw [(load_eq_ok_iff.mp hload).2.2]; rfl
    rw [hlimits] at hk
    rw [visibleRegisters_of_load hload hk, visibleRegisters_of_load hload' hk]

/-- The code of a machine that has just loaded a program is the program with
zeros behind it. -/
lemma getElem?_code_of_load (hload : load capacity limits P = .ok m) {q : ℕ}
    (hq : q < limits.memorySize) : m.code.toList[q]? = some (P.getD q 0) := by
  obtain ⟨hfits, hprogram, rfl⟩ := load_eq_ok_iff.mp hload
  rw [Reference.toList_code_fresh (hfits .memory) hprogram, Reference.Environment.of]
  by_cases hlt : q < P.size
  · rw [List.getElem?_append_left (by simpa using hlt), Array.getElem?_toList,
      Array.getElem?_eq_getElem hlt, ← Array.getElem_eq_getD (h := hlt)]
  · rw [List.getElem?_append_right (by simp; omega), List.getElem?_replicate,
      if_pos (by simp; omega)]
    simp [Array.getD, hlt]

/-- A step decodes the same instruction from programs that agree on the bytes
that it looks at. -/
lemma decodeAt_eq_of_load (hload : load capacity limits P = .ok m)
    (hload' : load capacity' limits Q = .ok m') {after : Machine} (hstorage : SameStorage m after)
    (hready : after.status = .ready)
    (hagree : ∀ q, after.Decodes q → Q.getD q 0 = P.getD q 0) :
    m'.code.decodeAt after.ip = m.code.decodeAt after.ip := by
  have hlimits : m.limits = limits := by rw [(load_eq_ok_iff.mp hload).2.2]; rfl
  have hlimits' : m'.limits = limits := by rw [(load_eq_ok_iff.mp hload').2.2]; rfl
  have hsize : m.code.size = limits.memorySize := by
    rw [size_code (WellFormed.of_load hload).memorySize_le, hlimits]
  have hsize' : m'.code.size = limits.memorySize := by
    rw [size_code (WellFormed.of_load hload').memorySize_le, hlimits']
  refine Code.decodeAt_congr (hsize'.trans hsize.symm) fun q hq hconsults => ?_
  have hq' : q < limits.memorySize := by rwa [hsize] at hq
  rw [getElem?_code_of_load hload hq', getElem?_code_of_load hload' hq', hagree q ⟨hready, ?_, ?_⟩]
  · rwa [hstorage.limits_eq, hlimits]
  · rwa [hstorage.code_eq]

/-- **Locality**: let two programs be loaded under the same limits, with zeros
behind them. As long as they agree on the bytes that the steps of the first one
decode, both give the same answers and print the same words, with the same
instruction pointer, stack, registers and status. The same holds of their runs,
which come to their ends after the same number of steps. -/
theorem undecoded_bytes_do_not_matter (hload : load capacity limits P = .ok m)
    (hload' : load capacity' limits Q = .ok m') {σ : Type} [Sink σ] (s : σ) (n : ℕ)
    (hagree : ∀ j < n, ∀ q, (m.steps s j).machine.Decodes q → Q.getD q 0 = P.getD q 0) :
    ((m'.steps s n).answers = (m.steps s n).answers ∧ (m'.steps s n).sink = (m.steps s n).sink ∧
        SameState (m.steps s n).machine (m'.steps s n).machine) ∧
      Option.Rel (Outcome.Alike SameState Eq) (m.run n s) (m'.run n s) := by
  have hsteps : ∀ k ≤ n, (m'.steps s k).answers = (m.steps s k).answers ∧
      SameState (m.steps s k).machine (m'.steps s k).machine ∧
        (m.steps s k).sink = (m'.steps s k).sink := by
    intro k hk
    have hmasked := masked_of_load hload hload'
    have hdecode : ∀ j < k, (m.steps s j).machine.status = .ready →
        m'.code.decodeAt (m.steps s j).machine.ip = m.code.decodeAt (m.steps s j).machine.ip :=
      fun j hj hready => decodeAt_eq_of_load hload hload'
        (sameStorage_steps hmasked.wellFormed s j) hready (hagree j (hj.trans_le hk))
    obtain ⟨hanswers, hsink, -, hafter⟩ :=
      hmasked.steps hdecode fun j _ r _ hr => absurd hr (Set.notMem_empty _)
    exact ⟨hanswers, ⟨hafter.abreast, hafter.visibleRegisters_eq fun k hk => hk.1⟩, hsink.symm⟩
  constructor
  · obtain ⟨hanswers, hsame, hsink⟩ := hsteps n le_rfl
    exact ⟨hanswers, hsink.symm, hsame⟩
  · rw [run_eq, run_eq, restart_of_load hload, restart_of_load hload']
    exact drive_alike_of_steps hsteps

/-- `JMP 4` over a byte that is no opcode to a `STOP`: another byte in its place
and data behind the `STOP` are not seen. -/
theorem undecoded_bytes_do_not_matter_behind_jump :
    let m := fresh ⟨8, 4, 16⟩ ⟨2, 3, 8⟩ #[5, 4, 0, 255, 13]
    let m' := fresh ⟨8, 4, 16⟩ ⟨2, 3, 8⟩ #[5, 4, 0, 1, 13, 99]
    (m'.steps (Tape.blank 0) 2).answers = [.ok .ready, .ok .stopped] ∧
      (m'.steps (Tape.blank 0) 2).machine.ip = 4 ∧
      Option.Rel (Outcome.Alike SameState Eq) (m.run 2 (Tape.blank 0))
        (m'.run 2 (Tape.blank 0)) := by
  intro m m'
  have hload : load ⟨8, 4, 16⟩ ⟨2, 3, 8⟩ #[5, 4, 0, 255, 13] = .ok m :=
    load_eq_ok_iff.mpr ⟨fun r => by cases r <;> decide, by decide, rfl⟩
  have hload' : load ⟨8, 4, 16⟩ ⟨2, 3, 8⟩ #[5, 4, 0, 1, 13, 99] = .ok m' :=
    load_eq_ok_iff.mpr ⟨fun r => by cases r <;> decide, by decide, rfl⟩
  have hsize : ∀ op : Opcode, (op.byte = 5 → op.size = 3) ∧ (op.byte = 13 → op.size = 1) := by
    intro op
    cases op <;> decide
  have hcode : ∀ j < 2, (m.steps (Tape.blank 0) j).machine.code.toList
      = [5, 4, 0, 255, 13, 0, 0, 0] := by decide +kernel
  have hip₀ : (m.steps (Tape.blank 0) 0).machine.ip = 0 := rfl
  have hip : (m.steps (Tape.blank 0) 1).machine.ip = 4 := by decide +kernel
  -- the first step looks at the bytes 0, 1 and 2, and the second one at the byte 4
  have hagree : ∀ j < 2, ∀ q, (m.steps (Tape.blank 0) j).machine.Decodes q →
      (#[5, 4, 0, 1, 13, 99] : Bytes).getD q 0 = (#[5, 4, 0, 255, 13] : Bytes).getD q 0 := by
    rintro j hj q ⟨-, -, rfl | ⟨op, hop, hlt, hle⟩⟩
    · interval_cases j
      · rfl
      · rw [hip]
        rfl
    · rw [hcode j hj] at hop
      interval_cases j
      · have hthree := (hsize op).1 (Option.some.inj hop).symm
        rw [hip₀] at hlt hle
        have hq : q = 1 ∨ q = 2 := by omega
        rcases hq with rfl | rfl
        · rfl
        · rfl
      · rw [hip] at hop hlt hle
        have hone := (hsize op).2 (Option.some.inj hop).symm
        omega
  obtain ⟨⟨hanswers, -, hsame⟩, hrun⟩ :=
    undecoded_bytes_do_not_matter hload hload' (Tape.blank 0) 2 hagree
  refine ⟨?_, ?_, hrun⟩
  · rw [hanswers]
    decide +kernel
  · rw [hsame.ip_eq]
    decide +kernel

end Bytecode.Machine
