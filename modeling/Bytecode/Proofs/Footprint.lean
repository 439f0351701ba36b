/-
What a program reads and writes: machines whose code and whose registers differ
where their programs do not look.

* `Machine.Stores`, `Machine.StoredWithin`: which registers are about to be set, and
  which have been;
* `visibleRegisters_steps` (**the frame**): a register that has not been set is
  as it was;
* `Machine.Masked`: machines at the same place, with the same registers outside
  a set;
* `Masked.step` (**one step on both sides**): if both decode the same
  instruction and load no register of the set, they do the same, and the
  registers that they set are no longer in the set;
* `Masked.steps` (**steps on both sides**): the same of any number of steps.
-/
import Mathlib
import Bytecode.Proofs.Lockstep
import Bytecode.Proofs.Simulation

namespace Bytecode.Machine

variable {σ : Type} [Sink σ] {m m' : Machine} {s : σ}

/-! ### What is set -/

/-- The next step sets the register with an index. -/
def Stores (m : Machine) (s : σ) (k : ℕ) : Prop :=
  (∃ r : UInt8, r.toNat = k ∧ m.Attempts (.store r)) ∧ (m.step s).answer = .ok .ready

/-- One of the first steps sets the register with an index. -/
def StoredWithin (m : Machine) (s : σ) (n k : ℕ) : Prop :=
  ∃ j < n, (m.steps s j).machine.Stores (m.steps s j).sink k

/-- The first steps load no register of a set before they have set it. -/
def LoadsOwn (m : Machine) (s : σ) (D : Set ℕ) (n : ℕ) : Prop :=
  ∀ j < n, ∀ r : UInt8, (m.steps s j).machine.Attempts (.load r) → r.toNat ∈ D →
    m.StoredWithin s j r.toNat

/-- What has been set stays set. -/
lemma StoredWithin.mono {n n' k : ℕ} (h : m.StoredWithin s n k) (hle : n ≤ n') :
    m.StoredWithin s n' k := by
  obtain ⟨j, hj, hstores⟩ := h
  exact ⟨j, hj.trans_le hle, hstores⟩

/-- At first nothing has been set. -/
lemma not_storedWithin_zero {k : ℕ} : ¬ m.StoredWithin s 0 k := by
  rintro ⟨j, hj, -⟩
  exact absurd hj (Nat.not_lt_zero j)

/-- What has been set after one more step. -/
lemma storedWithin_succ_iff {n k : ℕ} :
    m.StoredWithin s (n + 1) k ↔
      m.StoredWithin s n k ∨ (m.steps s n).machine.Stores (m.steps s n).sink k := by
  constructor
  · rintro ⟨j, hj, hstores⟩
    rcases Nat.lt_succ_iff_lt_or_eq.mp hj with hlt | rfl
    · exact .inl ⟨j, hlt, hstores⟩
    · exact .inr hstores
  · rintro (h | hstores)
    · exact h.mono (Nat.le_succ n)
    · exact ⟨n, Nat.lt_succ_self n, hstores⟩

/-- Steps that load no register before they have set it do so from any set. -/
lemma LoadsOwn.mono {D D' : Set ℕ} {n n' : ℕ} (h : m.LoadsOwn s D n) (hD : D' ⊆ D)
    (hle : n' ≤ n) : m.LoadsOwn s D' n' :=
  fun j hj r hload hr => h j (hj.trans_le hle) r hload (hD hr)

/-! ### The registers after a step -/

/-- A step sets a register exactly if the next instruction has an effect that
sets it. -/
lemma stores_iff (h : m.WellFormed) {k : ℕ} :
    m.Stores s k ↔ m.status = .ready ∧
      ∃ e r v, m.nextEffect = .ok (some e) ∧ e.stored? = some (r, v) ∧ r.toNat = k := by
  constructor
  · rintro ⟨⟨r, rfl, hready, next, hfetch⟩, hanswer⟩
    obtain ⟨e, he, -⟩ := exists_after_of_answer h hanswer
    have hstore : m.effect (.store r) next = .ok (some e) := by
      rw [← he, nextEffect, hfetch]
    obtain ⟨v, hv⟩ := stored?_of_effect_store hstore
    exact ⟨hready, e, r, v, he, hv, rfl⟩
  · rintro ⟨hready, e, r, v, he, hv, rfl⟩
    obtain ⟨i, next, hfetch, hi⟩ := exists_of_nextEffect he
    obtain ⟨rfl, -⟩ := eq_store_of_effect hi hv
    refine ⟨⟨r, rfl, hready, next, hfetch⟩, ?_⟩
    rw [step_of_ready h hready, he, realise, Effect.printed?_eq_none hv]
    rfl

/-- A step that sets a register sets it to the top of the stack. -/
lemma visibleRegisters_step_of_stores (h : m.WellFormed) {k : ℕ}
    (hk : k < m.limits.registerCount) (hstores : m.Stores s k) :
    (m.step s).machine.visibleRegisters[k]? = m.top? := by
  obtain ⟨hready, e, r, v, he, hv, rfl⟩ := (stores_iff h).mp hstores
  obtain ⟨i, next, -, hi⟩ := exists_of_nextEffect he
  have hafter : (m.step s).machine = m.after e := by
    rw [step_of_ready h hready, he, realise, Effect.printed?_eq_none hv]
    exact withStatus_after hready e
  rw [hafter, Reference.getElem?_visibleRegisters_after h e hk, hv, (eq_store_of_effect hi hv).2]
  exact if_pos rfl

/-- A step that does not set a register leaves it as it is. -/
lemma visibleRegisters_step_of_not_stores (h : m.WellFormed) {k : ℕ}
    (hk : k < m.limits.registerCount) (hstores : ¬ m.Stores s k) :
    (m.step s).machine.visibleRegisters[k]? = m.visibleRegisters[k]? := by
  by_cases hready : m.status = .ready
  · have hafter : ∀ e, m.nextEffect = .ok (some e) →
        (m.after e).visibleRegisters[k]? = m.visibleRegisters[k]? := by
      intro e he
      rw [Reference.getElem?_visibleRegisters_after h e hk]
      cases hv : e.stored? with
      | none => rfl
      | some stored =>
          obtain ⟨r, v⟩ := stored
          exact if_neg fun hr => hstores ((stores_iff h).mpr ⟨hready, e, r, v, he, hv, hr⟩)
    cases transition_step h hready s with
    | fault _ hout => rw [hout]; rfl
    | stop _ hout => rw [hout]; rfl
    | proceed he _ hout => rw [hout]; exact hafter _ he
    | print he _ _ hout => rw [hout]; exact hafter _ he
    | refuse _ _ _ hout => rw [hout]; rfl
  · rw [step_of_not_ready hready]

/-- **The frame**: a register that none of several steps has set is as it
was. -/
theorem visibleRegisters_steps (h : m.WellFormed) {n k : ℕ} (hk : k < m.limits.registerCount)
    (hstored : ¬ m.StoredWithin s n k) :
    (m.steps s n).machine.visibleRegisters[k]? = m.visibleRegisters[k]? := by
  induction n with
  | zero => rfl
  | succ n ih =>
      rw [storedWithin_succ_iff, not_or] at hstored
      obtain ⟨hbefore, hstores⟩ := hstored
      have hlimits : (m.steps s n).machine.limits = m.limits := (sameStorage_steps h s n).limits_eq
      calc (m.steps s (n + 1)).machine.visibleRegisters[k]?
          = (m.steps s n).machine.visibleRegisters[k]? :=
            visibleRegisters_step_of_not_stores (h.steps s n) (by rwa [hlimits]) hstores
        _ = m.visibleRegisters[k]? := ih hbefore

/-! ### Machines at the same place -/

/-- Machines at the same place with the same stack, under the same limits. Their
code and their registers may differ. -/
structure Abreast (m m' : Machine) : Prop where
  limits_eq : m'.limits = m.limits
  ip_eq : m'.ip = m.ip
  stack_eq : m'.stack = m.stack
  status_eq : m'.status = m.status

/-- An instruction has the same effect at the same place, if what it loads is
the same. -/
lemma Abreast.effect_eq (h : Abreast m m') {i : Instruction} (next : ℕ)
    (hload : ∀ r, i = .load r → m'.register? r = m.register? r) :
    m'.effect i next = m.effect i next := by
  obtain ⟨hlimits, hip, hstack, -⟩ := h
  obtain ⟨limits, memory, programSize, stack, stackCapacity, registers, ip, status⟩ := m
  obtain ⟨limits', memory', programSize', stack', stackCapacity', registers', ip', status'⟩ := m'
  dsimp only at hlimits hip hstack
  subst hlimits hip hstack
  cases i with
  | load r =>
      rw [effect, effect, hload r rfl]
      rfl
  | _ => rfl

/-- The same instruction is fetched from the same place, if the same one is
decoded there. -/
lemma Abreast.fetch_eq (h : Abreast m m')
    (hdecode : m'.code.decodeAt m.ip = m.code.decodeAt m.ip) : m'.fetch = m.fetch := by
  rw [Machine.fetch_eq, Machine.fetch_eq, h.limits_eq, h.ip_eq, hdecode]

/-- The same move leads to the same place. -/
lemma Abreast.moved (h : Abreast m m') (move : Move) : Abreast (m.moved move) (m'.moved move) := by
  cases move with
  | proceed e => exact { h with ip_eq := rfl, stack_eq := rfl }
  | settle status => exact { h with status_eq := rfl }

/-! ### Machines that differ where a program does not look -/

/-- Machines at the same place, whose registers are the same outside a set. -/
structure Masked (D : Set ℕ) (m m' : Machine) : Prop where
  wellFormed : m.WellFormed
  wellFormed' : m'.WellFormed
  abreast : Abreast m m'
  register_eq : ∀ k < m.limits.registerCount, k ∉ D →
    m'.visibleRegisters[k]? = m.visibleRegisters[k]?

variable {D : Set ℕ}

/-- Machines that are the same outside a set are so outside a larger one. -/
lemma Masked.mono {D' : Set ℕ} (h : Masked D m m') (hD : D ⊆ D') : Masked D' m m' :=
  { h with register_eq := fun k hk hmem => h.register_eq k hk fun hk => hmem (hD hk) }

/-- A register outside the set is read alike. -/
lemma Masked.register?_eq (h : Masked D m m') {r : UInt8} (hr : r.toNat ∉ D) :
    m'.register? r = m.register? r := by
  by_cases hlt : r.toNat < m.limits.registerCount
  · exact h.register_eq r.toNat hlt hr
  · have hlimits := h.abreast.limits_eq
    rw [register?_of_le h.wellFormed.registerCount_le (by omega),
      register?_of_le h.wellFormed'.registerCount_le (by rw [hlimits]; omega)]

/-- Without a register in the set, the registers in view are the same. -/
lemma Masked.visibleRegisters_eq (h : Masked D m m') (hD : D ⊆ ∅) :
    m'.visibleRegisters = m.visibleRegisters :=
  visibleRegisters_ext h.wellFormed.registerCount_le h.wellFormed'.registerCount_le
    h.abreast.limits_eq fun k hk => h.register_eq k hk fun hmem => hD hmem

/-- Machines that decode the same instruction, and load no register of the set,
have the same effect before them. -/
lemma Masked.nextEffect_eq (h : Masked D m m') (hready : m.status = .ready)
    (hdecode : m'.code.decodeAt m.ip = m.code.decodeAt m.ip)
    (hload : ∀ r : UInt8, m.Attempts (.load r) → r.toNat ∉ D) :
    m'.nextEffect = m.nextEffect := by
  rw [nextEffect, nextEffect, h.abreast.fetch_eq hdecode]
  cases hf : m.fetch with
  | error fault => rfl
  | ok found =>
      refine h.abreast.effect_eq found.2 fun r hr => h.register?_eq (hload r ⟨hready, found.2, ?_⟩)
      rw [hf, ← hr]

/-- They set the same registers. -/
lemma Masked.stores_iff (h : Masked D m m')
    (hdecode : m.status = .ready → m'.code.decodeAt m.ip = m.code.decodeAt m.ip)
    (hload : ∀ r : UInt8, m.Attempts (.load r) → r.toNat ∉ D) (k : ℕ) :
    m'.Stores s k ↔ m.Stores s k := by
  rw [Machine.stores_iff h.wellFormed, Machine.stores_iff h.wellFormed', h.abreast.status_eq]
  exact and_congr_right fun hready => by
    rw [h.nextEffect_eq hready (hdecode hready) hload]

/-- **One step on both sides**: machines that decode the same instruction, and
load no register of the set, give the same answer and come to the same place,
and a register that they set is the same from then on. -/
theorem Masked.step (h : Masked D m m')
    (hdecode : m.status = .ready → m'.code.decodeAt m.ip = m.code.decodeAt m.ip)
    (hload : ∀ r : UInt8, m.Attempts (.load r) → r.toNat ∉ D) (s : σ) :
    Outcome.Alike (Masked {k ∈ D | ¬ m.Stores s k}) Eq (m.step s) (m'.step s) := by
  have hw := h.wellFormed
  have hw' := h.wellFormed'
  obtain ⟨answer, move, s', t', hout, hout', hsink⟩ :=
    exists_move_step hw hw' h.abreast.status_eq h.abreast.ip_eq
      (fun hready => h.nextEffect_eq hready (hdecode hready) hload) Sink.matches_eq (rfl : s = s)
  have habreast : Abreast (m.step s).machine (m'.step s).machine := by
    rw [hout, hout']
    exact h.abreast.moved move
  refine ⟨by rw [hout, hout'], ⟨hw.step s, hw'.step s, habreast, fun k hk hmem => ?_⟩,
    by rw [hout, hout', hsink]⟩
  rw [(sameStorage_step hw s).limits_eq] at hk
  have hk' : k < m'.limits.registerCount := by rwa [h.abreast.limits_eq]
  by_cases hset : m.Stores s k
  · -- both have set it, to the same top of the stack
    have hset' : m'.Stores s k := (h.stores_iff hdecode hload k).mpr hset
    rw [visibleRegisters_step_of_stores hw hk hset,
      visibleRegisters_step_of_stores hw' hk' hset', top?, top?, h.abreast.stack_eq]
  · have hset' : ¬ m'.Stores s k := mt (h.stores_iff hdecode hload k).mp hset
    rw [visibleRegisters_step_of_not_stores hw hk hset,
      visibleRegisters_step_of_not_stores hw' hk' hset']
    exact h.register_eq k hk fun hD => hmem ⟨hD, hset⟩

/-- **Steps on both sides**: as long as machines decode the same instructions,
and load no register of the set before they have set it, they give the same
answers, set the same registers and stay at the same place, and the registers
that they have set are the same. -/
theorem Masked.steps (h : Masked D m m') {n : ℕ}
    (hdecode : ∀ j < n, (m.steps s j).machine.status = .ready →
      m'.code.decodeAt (m.steps s j).machine.ip = m.code.decodeAt (m.steps s j).machine.ip)
    (hload : m.LoadsOwn s D n) :
    (m'.steps s n).answers = (m.steps s n).answers ∧ (m'.steps s n).sink = (m.steps s n).sink ∧
      (∀ k, m'.StoredWithin s n k ↔ m.StoredWithin s n k) ∧
      Masked {k ∈ D | ¬ m.StoredWithin s n k} (m.steps s n).machine (m'.steps s n).machine := by
  induction n with
  | zero =>
      exact ⟨rfl, rfl, fun k => iff_of_false not_storedWithin_zero not_storedWithin_zero,
        h.mono fun k hk => ⟨hk, not_storedWithin_zero⟩⟩
  | succ n ih =>
      obtain ⟨hanswers, hsink, hstored, hmasked⟩ :=
        ih (fun j hj => hdecode j (hj.trans (Nat.lt_succ_self n)))
          (hload.mono subset_rfl (Nat.le_succ n))
      -- the code is that of the start on either side
      have hdecode' : (m.steps s n).machine.status = .ready →
          (m'.steps s n).machine.code.decodeAt (m.steps s n).machine.ip
            = (m.steps s n).machine.code.decodeAt (m.steps s n).machine.ip := by
        rw [(sameStorage_steps h.wellFormed s n).code_eq,
          (sameStorage_steps h.wellFormed' s n).code_eq]
        exact hdecode n (Nat.lt_succ_self n)
      have hload' : ∀ r : UInt8, (m.steps s n).machine.Attempts (.load r) →
          r.toNat ∉ {k ∈ D | ¬ m.StoredWithin s n k} :=
        fun r hattempts hr => hr.2 (hload n (Nat.lt_succ_self n) r hattempts hr.1)
      have hstep := hmasked.step hdecode' hload' (m.steps s n).sink
      have hset : {k ∈ {k ∈ D | ¬ m.StoredWithin s n k} |
          ¬ (m.steps s n).machine.Stores (m.steps s n).sink k}
            = {k ∈ D | ¬ m.StoredWithin s (n + 1) k} := by
        ext k
        simp only [Set.mem_ofPred_eq, storedWithin_succ_iff, not_or, and_assoc]
      rw [hset] at hstep
      refine ⟨?_, ?_, fun k => ?_, ?_⟩
      · rw [Machine.steps, Machine.steps]
        dsimp only
        rw [hsink, hanswers, hstep.answer_eq]
      · rw [Machine.steps, Machine.steps]
        dsimp only
        rw [hsink]
        exact hstep.sink.symm
      · rw [storedWithin_succ_iff, storedWithin_succ_iff, hstored k, hsink,
          hmasked.stores_iff hdecode' hload' k]
      · rw [Machine.steps, Machine.steps]
        dsimp only
        rw [hsink]
        exact hstep.machine

end Bytecode.Machine
