/-
What the registers hold: the words that were last put there.

* `Machine.deposit?`: the register that the next step sets, with the word that it takes
  off the stack for it. `deposit?_eq_some_iff`, `stack_of_deposit?`: only a `STORE` that
  goes on makes a deposit, of the top of the stack;
* `visibleRegisters_step_of_deposit?`, `visibleRegisters_step_of_deposit?_eq_none`: the
  other registers after a deposit, and all of them after a step without one;
* `stack_of_load`: what a `LOAD` puts on the stack;
* `Machine.Keeps`: registers that hold what was last deposited. Steps and restarts keep
  it (`Keeps.step`, `Keeps.restart`);
* `registers_hold_last_deposits` (**the registers over a whole life**).
-/
import Mathlib
import Bytecode.Proofs.Chronicle
import Bytecode.Proofs.Footprint

namespace Bytecode.Machine

variable {σ : Type} [Sink σ] {m : Machine} {s : σ} {k : ℕ} {v : Word}

/-! ### Deposits -/

/-- The register that the next step sets, and the word that it takes off the stack for
it: a `STORE` makes a deposit if it goes on. -/
def deposit? (m : Machine) (s : σ) : Option (ℕ × Word) :=
  match m.attempted?, (m.step s).answer, m.top? with
  | some (.store r), .ok .ready, some v => some (r.toNat, v)
  | _, _, _ => none

/-- What makes a deposit. -/
lemma deposit?_eq_some_iff :
    m.deposit? s = some (k, v) ↔ m.Stores s k ∧ m.top? = some v := by
  rw [deposit?, Stores]
  constructor
  · intro h
    split at h
    next r v' hattempted hanswer htop =>
      cases h
      exact ⟨⟨⟨r, rfl, attempted?_eq_some_iff.mp hattempted⟩, hanswer⟩, htop⟩
    next => cases h
  · rintro ⟨⟨⟨r, rfl, hattempts⟩, hanswer⟩, htop⟩
    rw [attempted?_eq_some_iff.mpr hattempts, hanswer, htop]

/-- A step makes a deposit in a register exactly if it sets it. -/
lemma exists_deposit?_iff (h : m.WellFormed) :
    (∃ v, m.deposit? s = some (k, v)) ↔ m.Stores s k := by
  constructor
  · rintro ⟨v, hv⟩
    exact (deposit?_eq_some_iff.mp hv).1
  · intro hstores
    obtain ⟨-, e, r, v, he, hstored, -⟩ := (stores_iff h).mp hstores
    obtain ⟨i, next, -, hi⟩ := exists_of_nextEffect he
    exact ⟨v, deposit?_eq_some_iff.mpr ⟨hstores, (eq_store_of_effect hi hstored).2⟩⟩

/-- A deposit is taken off the stack. -/
lemma stack_of_deposit? (h : m.WellFormed) (hv : m.deposit? s = some (k, v)) :
    m.stack = v :: (m.step s).machine.stack := by
  obtain ⟨⟨⟨r, -, -, next, hfetch⟩, hanswer⟩, htop⟩ := deposit?_eq_some_iff.mp hv
  obtain ⟨e, he, hafter⟩ := exists_after_of_answer h hanswer
  rw [nextEffect, hfetch] at he
  dsimp only at he
  rw [effect] at he
  split_ifs at he
  obtain ⟨top, rest, hstack, rfl⟩ := exists_of_taking he
  rw [top?, hstack] at htop
  cases htop
  rw [hstack, hafter]
  rfl

/-! ### The registers after a step -/

/-- A deposit in one register leaves the others as they are. -/
lemma visibleRegisters_step_of_deposit? (h : m.WellFormed) (hv : m.deposit? s = some (k, v))
    {k' : ℕ} (hne : k' ≠ k) :
    (m.step s).machine.visibleRegisters[k']? = m.visibleRegisters[k']? := by
  have hle := h.registerCount_le
  have hle' := (h.step s).registerCount_le
  have hlimits := (sameStorage_step h s).limits_eq
  by_cases hk' : k' < m.limits.registerCount
  · refine visibleRegisters_step_of_not_stores h hk' fun hstores => ?_
    obtain ⟨v', hv'⟩ := (exists_deposit?_iff h).mpr hstores
    rw [hv] at hv'
    cases hv'
    exact hne rfl
  · rw [visibleRegisters_eq hle, visibleRegisters_eq hle', hlimits,
      Array.getElem?_eq_none (by simp; omega), Array.getElem?_eq_none (by simp; omega)]

/-- Without a deposit all registers stay as they are. -/
lemma visibleRegisters_step_of_deposit?_eq_none (h : m.WellFormed) (hnone : m.deposit? s = none) :
    (m.step s).machine.visibleRegisters = m.visibleRegisters := by
  refine visibleRegisters_ext h.registerCount_le (h.step s).registerCount_le
    (sameStorage_step h s).limits_eq fun k hk => ?_
  refine visibleRegisters_step_of_not_stores h hk fun hstores => ?_
  obtain ⟨v, hv⟩ := (exists_deposit?_iff h).mpr hstores
  rw [hnone] at hv
  cases hv

/-- A `LOAD` that goes on puts the value of its register on the stack. -/
lemma stack_of_load (h : m.WellFormed) {r : UInt8} (hload : m.attempted? = some (.load r))
    (hanswer : (m.step s).answer = .ok .ready) :
    ∃ v, m.register? r = some v ∧ (m.step s).machine.stack = v :: m.stack := by
  obtain ⟨-, next, hfetch⟩ := attempted?_eq_some_iff.mp hload
  obtain ⟨e, he, hafter⟩ := exists_after_of_answer h hanswer
  rw [nextEffect, hfetch] at he
  dsimp only at he
  rw [effect] at he
  cases hr : m.register? r with
  | none => simp [hr] at he
  | some v =>
      rw [hr] at he
      obtain ⟨-, rfl⟩ := eq_of_pushing he
      exact ⟨v, rfl, by rw [hafter]; rfl⟩

/-! ### Over a whole life -/

/-- The word that was last deposited in a register, and zero if none was. -/
def lastDeposit (deposits : List (ℕ × Word)) (k : ℕ) : Word :=
  (deposits.reverse.lookup k).getD 0

/-- A deposit is the last one in its register, and not in the others. -/
lemma lastDeposit_concat (deposits : List (ℕ × Word)) (k k' : ℕ) (v : Word) :
    lastDeposit (deposits ++ [(k, v)]) k' = if k' = k then v else lastDeposit deposits k' := by
  rw [lastDeposit, List.reverse_append, List.reverse_singleton, List.singleton_append,
    List.lookup_cons]
  by_cases hk : k' = k
  · simp [hk]
  · rw [if_neg hk, beq_eq_false_iff_ne.mpr hk]
    rfl

/-- The registers hold what was last deposited in them. -/
structure Keeps (deposits : List (ℕ × Word)) (m : Machine) : Prop where
  wellFormed : m.WellFormed
  register_eq : ∀ k < m.limits.registerCount,
    m.visibleRegisters[k]? = some (lastDeposit deposits k)

variable {deposits : List (ℕ × Word)}

/-- A restart changes no register. -/
lemma Keeps.restart (h : Keeps deposits m) : Keeps deposits m.restart :=
  ⟨h.wellFormed.restart, h.register_eq⟩

/-- **One step**: the registers hold what was last deposited in them, also by this
step. -/
theorem Keeps.step (h : Keeps deposits m) (s : σ) :
    Keeps (deposits ++ (m.deposit? s).toList) (m.step s).machine := by
  obtain ⟨hw, hregister⟩ := h
  have hlimits := (sameStorage_step hw s).limits_eq
  refine ⟨hw.step s, fun k hk => ?_⟩
  rw [hlimits] at hk
  cases hv : m.deposit? s with
  | none =>
      rw [visibleRegisters_step_of_deposit?_eq_none hw hv, hregister k hk, Option.toList_none,
        List.append_nil]
  | some deposit =>
      obtain ⟨k', v⟩ := deposit
      rw [Option.toList_some, lastDeposit_concat]
      by_cases hne : k = k'
      · subst hne
        obtain ⟨hstores, htop⟩ := deposit?_eq_some_iff.mp hv
        rw [visibleRegisters_step_of_stores hw hk hstores, htop, if_pos rfl]
      · rw [visibleRegisters_step_of_deposit? hw hv hne, hregister k hk, if_neg hne]

variable {capacity limits : Limits} {program : Bytes}

/-- A machine that has just loaded a program holds zeros, and nothing was deposited. -/
lemma keeps_of_load (hload : load capacity limits program = .ok m) : Keeps [] m := by
  refine ⟨.of_load hload, fun k hk => ?_⟩
  have hlimits : m.limits = limits := by rw [(load_eq_ok_iff.mp hload).2.2]; rfl
  rw [visibleRegisters_of_load hload (hlimits ▸ hk)]
  rfl

/-- **The registers over a whole life**: load a program, make any calls that all come to
an answer, and then take any number of steps, or begin another run and take as many steps
of it, with any sinks. Every register holds the word that was last deposited in it since
the program was loaded, and zero if none was. A deposit is made by the `STORE`s that go
on, and by no other instruction; it is taken off the stack, and leaves the other registers
as they are. Without a deposit no register changes, neither by a step, which may end in a
fault, nor by the beginning of a run. A `LOAD` that goes on puts the word that was last
deposited on the stack. -/
theorem registers_hold_last_deposits {m : Machine} (hload : load capacity limits program = .ok m)
    {σ : Type} [Sink σ] (s : σ) (calls : List (Call × (σ → σ))) {after : Calls σ}
    (hcalls : m.calls s calls = some after) :
    after.machine.restart.visibleRegisters = after.machine.visibleRegisters ∧
    ∀ start ∈ [after.machine, after.machine.restart],
      ∀ {τ : Type} [Sink τ] (t : τ) (n : ℕ),
      let now := start.steps t n
      let made? := now.machine.deposit? now.sink
      let next := now.machine.step now.sink
      let deposits := m.alongCalls Machine.deposit? s calls ++ start.along Machine.deposit? t n
      (∀ k < limits.registerCount,
        now.machine.visibleRegisters[k]? = some (lastDeposit deposits k)) ∧
      (∀ k, (∃ v, made? = some (k, v)) ↔
        (∃ r : UInt8, r.toNat = k ∧ now.machine.attempted? = some (.store r)) ∧
          next.answer = .ok .ready) ∧
      (∀ k v, made? = some (k, v) → now.machine.stack = v :: next.machine.stack ∧
        ∀ k' ≠ k,
          next.machine.visibleRegisters[k']? = now.machine.visibleRegisters[k']?) ∧
      (made? = none → next.machine.visibleRegisters = now.machine.visibleRegisters) ∧
      ∀ r, now.machine.attempted? = some (.load r) → next.answer = .ok .ready →
        next.machine.stack = lastDeposit deposits r.toNat :: now.machine.stack := by
  have hafter : Keeps (m.alongCalls Machine.deposit? s calls) after.machine :=
    calls_along (P := Keeps) (fun _ _ => Keeps.restart) (fun _ _ s h => h.step s)
      (keeps_of_load hload) hcalls
  refine ⟨rfl, fun start hmem τ _ t n => ?_⟩
  have hstart : Keeps (m.alongCalls Machine.deposit? s calls) start ∧ start.limits = limits := by
    have hlimits := ((Life.load hload).calls hcalls).sameStorage.limits_eq
    simp only [List.mem_cons, List.not_mem_nil, or_false] at hmem
    rcases hmem with rfl | rfl
    · exact ⟨hafter, hlimits⟩
    · exact ⟨hafter.restart, hlimits⟩
  intro now made? next deposits
  have hnow : Keeps deposits now.machine :=
    steps_along (P := Keeps) (fun _ _ s h => h.step s) hstart.1 t n
  have hw := hnow.wellFormed
  have hlimits : now.machine.limits = limits :=
    (sameStorage_steps hstart.1.wellFormed t n).limits_eq.trans hstart.2
  refine ⟨hlimits ▸ hnow.register_eq, fun k => ?_, fun k v hv => ⟨stack_of_deposit? hw hv,
    fun k' hne => visibleRegisters_step_of_deposit? hw hv hne⟩,
    visibleRegisters_step_of_deposit?_eq_none hw, fun r hattempted hanswer => ?_⟩
  · rw [exists_deposit?_iff hw, Stores]
    simp only [attempted?_eq_some_iff]
    rfl
  · obtain ⟨v, hv, hstack⟩ := stack_of_load hw hattempted hanswer
    have hlt : r.toNat < now.machine.limits.registerCount := by
      by_contra hge
      rw [register?_of_le hw.registerCount_le (Nat.le_of_not_lt hge)] at hv
      cases hv
    have hvalue : v = lastDeposit deposits r.toNat :=
      Option.some.inj (hv.symm.trans (hnow.register_eq r.toNat hlt))
    rw [← hvalue]
    exact hstack

/-- `LOAD r0`, `PUSH 7`, `ADD` and `STORE r0`, and a `STORE r1` that finds the stack empty:
the second of two runs loads what the first one has stored, and a third one would load
what the second one has. -/
theorem registers_hold_last_deposits_of_two_runs :
    let m := fresh ⟨8, 4, 16⟩ ⟨2, 2, 12⟩ #[3, 0, 1, 7, 0, 0, 0, 8, 4, 0, 4, 1]
    ∃ after, m.calls (Tape.blank 0) [(.run 9, id), (.run 9, id)] = some after ∧
      after.machine.status = .faulted (.stackUnderflow .store 10 1 0) ∧
      m.alongCalls deposit? (Tape.blank 0) [(.run 9, id), (.run 9, id)] = [(0, 7), (0, 14)] ∧
      after.machine.visibleRegisters[0]? = some 14 ∧
      after.machine.visibleRegisters[1]? = some 0 ∧
      (after.machine.restart.step (Tape.blank 0)).machine.stack = [14] := by
  intro m
  have hload : load ⟨8, 4, 16⟩ ⟨2, 2, 12⟩ #[3, 0, 1, 7, 0, 0, 0, 8, 4, 0, 4, 1] = .ok m :=
    load_eq_ok_iff.mpr ⟨fun r => by cases r <;> decide, by decide, rfl⟩
  have hdeposits : m.alongCalls deposit? (Tape.blank 0) [(.run 9, id), (.run 9, id)]
      = [(0, 7), (0, 14)] := by decide +kernel
  have hends : (m.calls (Tape.blank 0) [(.run 9, id), (.run 9, id)]).map
      (fun after => (after.machine.status, after.machine.restart.attempted?,
        (after.machine.restart.step (Tape.blank 0)).answer))
      = some (.faulted (.stackUnderflow .store 10 1 0), some (.load 0), .ok .ready) := by
    decide +kernel
  obtain ⟨after, hafter, hseen⟩ := Option.map_eq_some_iff.mp hends
  obtain ⟨hstatus, hnext⟩ := Prod.mk.inj hseen
  obtain ⟨hattempted, hanswer⟩ := Prod.mk.inj hnext
  obtain ⟨-, hlife⟩ := registers_hold_last_deposits hload (Tape.blank 0) _ hafter
  obtain ⟨hregister, -, -, -, hloads⟩ :=
    hlife after.machine.restart (by simp) (Tape.blank 0) 0
  have hstack := hloads 0 hattempted hanswer
  simp only [hdeposits, along, List.range_zero, List.filterMap_nil, List.append_nil]
    at hregister hstack
  exact ⟨after, hafter, hstatus, hdeposits, hregister 0 (by decide), hregister 1 (by decide),
    hstack⟩

end Bytecode.Machine
