/-
The life of a machine: what becomes of it after it has loaded a program,
by steps and runs in any order, each with a sink of its own.

* `Machine.Life`: the machines that a program under limits can become;
* `Life.induction`: what holds after loading and is kept by a restart and
  by every step holds for life;
* `SameStorage`: the program, the limits and the sizes of the storage,
  which no step changes;
* `Life.wellFormed` and `Life.sameStorage`: a machine stays well-formed,
  with the storage that it was loaded with;
* `Machine.steps`: several steps with one sink, and their answers.
-/
import Mathlib
import Bytecode.Proofs.Effect

namespace Bytecode

/-- An effect keeps to limits. -/
structure Effect.Within (limits : Limits) (e : Effect) : Prop where
  length_stack_le : e.stack.length ≤ limits.stackSize
  ip_le : e.ip ≤ limits.memorySize
  register_lt : ∀ r v, e.stored? = some (r, v) → r.toNat < limits.registerCount

/-- An effect that sets no register keeps to limits if its stack and its
offset do. -/
lemma Effect.Within.of_stored?_eq_none {limits : Limits} {e : Effect} (hstored : e.stored? = none)
    (hstack : e.stack.length ≤ limits.stackSize) (hip : e.ip ≤ limits.memorySize) :
    e.Within limits := by
  refine ⟨hstack, hip, fun r v h => ?_⟩
  rw [hstored] at h
  cases h

namespace Machine

/-- The machines that a program loaded under limits can become. -/
inductive Life (capacity limits : Limits) (program : Bytes) : Machine → Prop
  /-- The program has just been loaded. -/
  | load {m : Machine} (h : Machine.load capacity limits program = .ok m) :
      Life capacity limits program m
  /-- The program has just been loaded, with the capacities as limits. -/
  | boot {m : Machine} (hlimits : limits = capacity)
      (h : Machine.boot capacity program = .ok m) : Life capacity limits program m
  /-- A step has been taken. -/
  | step {m : Machine} {σ : Type} [Sink σ] (s : σ) (h : Life capacity limits program m) :
      Life capacity limits program (m.step s).machine
  /-- A run has come to its end. -/
  | run {m : Machine} {σ : Type} [Sink σ] (s : σ) {fuel : ℕ} {out : Outcome Unit σ}
      (h : Life capacity limits program m) (hrun : m.run fuel s = some out) :
      Life capacity limits program out.machine

/-! ### Induction over a life -/

/-- What every step keeps is kept until a run ends. -/
lemma drive_induction {σ : Type} [Sink σ] {P : Machine → Prop}
    (hstep : ∀ (m : Machine) (s : σ), P m → P (m.step s).machine) {fuel : ℕ} {m : Machine}
    {s : σ} {out : Outcome Unit σ} (h : P m) (hdrive : m.drive fuel s = some out) :
    P out.machine := by
  induction fuel generalizing m s with
  | zero => cases hdrive
  | succ fuel ih =>
      have hnext : P (m.step s).machine := hstep m s h
      rw [drive_succ] at hdrive
      cases ha : (m.step s).answer with
      | error fault =>
          simp only [ha, Option.some.injEq] at hdrive
          rw [← hdrive]
          exact hnext
      | ok signal =>
          cases signal with
          | ready =>
              simp only [ha] at hdrive
              exact ih hnext hdrive
          | stopped =>
              simp only [ha, Option.some.injEq] at hdrive
              rw [← hdrive]
              exact hnext

/-- **Induction over a life**: what holds once the program is loaded, and
is kept by a restart and by every step, holds for life. -/
theorem Life.induction {capacity limits : Limits} {program : Bytes} {P : Machine → Prop}
    (hload : ∀ m, Machine.load capacity limits program = .ok m → P m)
    (hrestart : ∀ m, P m → P m.restart)
    (hstep : ∀ {σ : Type} [Sink σ] (m : Machine) (s : σ), P m → P (m.step s).machine)
    {m : Machine} (h : Life capacity limits program m) : P m := by
  induction h with
  | load h => exact hload _ h
  | boot hlimits h =>
      subst hlimits
      exact hload _ h
  | step s _ ih => exact hstep _ s ih
  | run s _ hrun ih => exact drive_induction hstep (hrestart _ ih) hrun

/-! ### The storage stays -/

/-- Two machines with the same program under the same limits, in storage of
the same sizes. -/
structure SameStorage (m m' : Machine) : Prop where
  limits_eq : m'.limits = m.limits
  memory_eq : m'.memory = m.memory
  programSize_eq : m'.programSize = m.programSize
  stackCapacity_eq : m'.stackCapacity = m.stackCapacity
  size_registers : m'.registers.size = m.registers.size

lemma SameStorage.refl (m : Machine) : SameStorage m m :=
  ⟨rfl, rfl, rfl, rfl, rfl⟩

lemma SameStorage.trans {m₁ m₂ m₃ : Machine} (h : SameStorage m₁ m₂) (h' : SameStorage m₂ m₃) :
    SameStorage m₁ m₃ :=
  ⟨h'.limits_eq.trans h.limits_eq, h'.memory_eq.trans h.memory_eq,
    h'.programSize_eq.trans h.programSize_eq, h'.stackCapacity_eq.trans h.stackCapacity_eq,
    h'.size_registers.trans h.size_registers⟩

/-- The code stays with the storage. -/
lemma SameStorage.code_eq {m m' : Machine} (h : SameStorage m m') : m'.code = m.code := by
  rw [code, code, h.memory_eq, h.limits_eq]

/-- An effect leaves the storage where it is. -/
lemma sameStorage_after (m : Machine) (e : Effect) : SameStorage m (m.after e) := by
  refine ⟨rfl, rfl, rfl, rfl, ?_⟩
  rw [after]
  cases e.stored? with
  | none => rfl
  | some stored => simp

/-- A step of a well-formed machine leaves the storage where it is. -/
lemma sameStorage_step {σ : Type} [Sink σ] {m : Machine} (h : m.WellFormed) (s : σ) :
    SameStorage m (m.step s).machine := by
  by_cases hready : m.status = .ready
  · cases transition_step h hready s with
    | fault _ hout => rw [hout]; exact ⟨rfl, rfl, rfl, rfl, rfl⟩
    | stop _ hout => rw [hout]; exact ⟨rfl, rfl, rfl, rfl, rfl⟩
    | proceed _ _ hout => rw [hout]; exact sameStorage_after m _
    | print _ _ _ hout => rw [hout]; exact sameStorage_after m _
    | refuse _ _ _ hout => rw [hout]; exact ⟨rfl, rfl, rfl, rfl, rfl⟩
  · rw [step_of_not_ready hready]
    exact .refl m

/-! ### Effects keep to the limits -/

variable {m : Machine} {e : Effect}

/-- What is left below the top keeps to the limit. -/
lemma length_rest_le (h : m.WellFormed) {v : Word} {rest : List Word} (hs : m.stack = v :: rest) :
    rest.length < m.limits.stackSize := by
  have hdepth := h.depth_le
  rw [depth, hs, List.length_cons] at hdepth
  omega

/-- A push keeps to the limits. -/
lemma within_of_pushing {v : Word} {next : ℕ} (hnext : next ≤ m.limits.memorySize)
    (he : m.pushing v next = .ok (some e)) : e.Within m.limits := by
  obtain ⟨hroom, rfl⟩ := eq_of_pushing he
  exact .of_stored?_eq_none rfl hroom hnext

/-- An operation keeps to the limits: it leaves fewer words than before. -/
lemma within_of_combining (h : m.WellFormed) (op : Arithmetic) {next : ℕ}
    (hnext : next ≤ m.limits.memorySize) (he : m.combining op next = .ok (some e)) :
    e.Within m.limits := by
  obtain ⟨upper, lower, rest, v, hs, rfl⟩ := exists_of_combining he
  exact .of_stored?_eq_none rfl (length_rest_le h hs).le hnext

/-- A jump keeps to the limits if it leads to an offset within them. -/
lemma within_of_jumping (h : m.WellFormed) {destination : Except Fault ℕ}
    (hto : ∀ offset, destination = .ok offset → offset ≤ m.limits.memorySize)
    (he : m.jumping destination = .ok (some e)) : e.Within m.limits := by
  obtain ⟨offset, hdestination, rfl⟩ := exists_of_jumping he
  exact .of_stored?_eq_none rfl h.depth_le (hto offset hdestination)

/-- What is allowed as a target is where the jump leads, below the limit. -/
lemma eq_of_destination {offset destination : ℕ} {target : UInt16}
    (h : m.destination offset target = .ok destination) :
    destination = target.toNat ∧ destination < m.limits.memorySize := by
  rw [Machine.destination] at h
  split_ifs at h with hle
  cases h
  exact ⟨rfl, Nat.lt_of_not_le hle⟩

/-- A conditional jump leads to its target if the top of the stack passes the
test, and else to the next instruction. -/
lemma eq_of_branch {op : Opcode} {offset next destination : ℕ} {target : UInt16}
    {test : Word → Bool} (h : m.branch op offset target test next = .ok destination) :
    target.toNat < m.limits.memorySize ∧
      ∃ v, m.top? = some v ∧ destination = if test v then target.toNat else next := by
  rw [branch] at h
  cases hd : m.destination offset target with
  | error fault => simp [hd, bind, Except.bind] at h
  | ok offset' =>
      obtain ⟨rfl, hlt⟩ := eq_of_destination hd
      cases hv : m.top? with
      | none => simp [hd, peek, hv, bind, Except.bind] at h
      | some v =>
          simp only [hd, peek, hv, bind, Except.bind, pure, Except.pure, Except.ok.injEq] at h
          exact ⟨hlt, v, rfl, h.symm⟩

/-- A conditional jump leads below the limit or to the next instruction. -/
lemma branch_le {op : Opcode} {offset next destination : ℕ} {target : UInt16}
    {test : Word → Bool} (hnext : next ≤ m.limits.memorySize)
    (h : m.branch op offset target test next = .ok destination) :
    destination ≤ m.limits.memorySize := by
  obtain ⟨hlt, v, -, rfl⟩ := eq_of_branch h
  split_ifs
  · exact hlt.le
  · exact hnext

/-- Every effect keeps to the limits. -/
lemma within_of_effect (h : m.WellFormed) {i : Instruction} {next : ℕ}
    (hnext : next ≤ m.limits.memorySize) (he : m.effect i next = .ok (some e)) :
    e.Within m.limits := by
  cases i with
  | nop =>
      cases he
      exact .of_stored?_eq_none rfl h.depth_le hnext
  | push v => exact within_of_pushing hnext he
  | pop =>
      obtain ⟨v, rest, hs, rfl⟩ := exists_of_taking he
      exact .of_stored?_eq_none rfl (length_rest_le h hs).le hnext
  | load r =>
      rw [effect] at he
      cases hr : m.register? r with
      | none => simp [hr] at he
      | some v => exact within_of_pushing hnext (by simpa [hr] using he)
  | store r =>
      rw [effect] at he
      split_ifs at he with hr
      obtain ⟨v, rest, hs, rfl⟩ := exists_of_taking he
      refine ⟨(length_rest_le h hs).le, hnext, fun r' v' h => ?_⟩
      cases h
      omega
  | jmp target => exact within_of_jumping h (fun _ hd => (eq_of_destination hd).2.le) he
  | jz target => exact within_of_jumping h (fun _ hd => branch_le hnext hd) he
  | jnz target => exact within_of_jumping h (fun _ hd => branch_le hnext hd) he
  | add => exact within_of_combining h .add hnext he
  | sub => exact within_of_combining h .sub hnext he
  | mul => exact within_of_combining h .mul hnext he
  | div => exact within_of_combining h .div hnext he
  | print =>
      obtain ⟨v, rest, hs, rfl⟩ := exists_of_taking he
      exact .of_stored?_eq_none rfl (length_rest_le h hs).le hnext
  | stop => cases he

/-- The effect of the next instruction keeps to the limits, since no
instruction is read past them. -/
lemma within_of_nextEffect (h : m.WellFormed) (he : m.nextEffect = .ok (some e)) :
    e.Within m.limits := by
  obtain ⟨i, next, hf, he⟩ := exists_of_nextEffect he
  exact within_of_effect h (fetch_eq_ok h hf).2.2 he

/-! ### A machine stays well-formed -/

/-- An effect that keeps to the limits leaves the machine well-formed. -/
lemma WellFormed.after (h : m.WellFormed) (he : e.Within m.limits) : (m.after e).WellFormed where
  one_le_stackSize := h.one_le_stackSize
  stackSize_le := h.stackSize_le
  one_le_registerCount := h.one_le_registerCount
  registerCount_le := by
    rw [(sameStorage_after m e).size_registers]
    exact h.registerCount_le
  one_le_memorySize := h.one_le_memorySize
  memorySize_le := h.memorySize_le
  programSize_le := h.programSize_le
  depth_le := he.length_stack_le
  ip_le := he.ip_le
  memory_eq_zero := h.memory_eq_zero
  register_eq_zero := by
    intro k v hk hv
    rw [Machine.after] at hv
    cases hs : e.stored? with
    | none =>
        simp only [hs] at hv
        exact h.register_eq_zero k v hk hv
    | some stored =>
        obtain ⟨r, w⟩ := stored
        have hr := he.register_lt r w hs
        have hlt := r.toNat_lt
        -- the register that is set lies below the limit and below 256
        have hne : r.toNat ≠ k := by
          simp only [Machine.after] at hk
          omega
        simp only [hs, Array.getElem?_setIfInBounds_ne hne] at hv
        exact h.register_eq_zero k v hk hv

/-- A machine of another status is as well-formed. -/
lemma WellFormed.withStatus (h : m.WellFormed) (status : Status) :
    (m.withStatus status).WellFormed :=
  { h with }

/-- A step leaves a well-formed machine well-formed. -/
theorem WellFormed.step {σ : Type} [Sink σ] (h : m.WellFormed) (s : σ) :
    (m.step s).machine.WellFormed := by
  by_cases hready : m.status = .ready
  · cases transition_step h hready s with
    | fault _ hout => rw [hout]; exact h.withStatus _
    | stop _ hout => rw [hout]; exact h.withStatus _
    | proceed he _ hout => rw [hout]; exact h.after (within_of_nextEffect h he)
    | print he _ _ hout => rw [hout]; exact h.after (within_of_nextEffect h he)
    | refuse _ _ _ hout => rw [hout]; exact h.withStatus _
  · rw [step_of_not_ready hready]
    exact h

variable {capacity limits : Limits} {program : Bytes}

/-- A machine is well-formed for life. -/
theorem Life.wellFormed (h : Life capacity limits program m) : m.WellFormed :=
  h.induction (fun _ => WellFormed.of_load) (fun _ => WellFormed.restart)
    (fun _ s h => WellFormed.step h s)

/-- A machine has the storage that it was loaded with for life. -/
theorem Life.sameStorage (h : Life capacity limits program m) :
    SameStorage (fresh capacity limits program) m := by
  -- a step keeps the storage of a machine that is well-formed
  let P (m : Machine) : Prop := m.WellFormed ∧ SameStorage (fresh capacity limits program) m
  have hload : ∀ m, Machine.load capacity limits program = .ok m → P m := by
    intro m hm
    refine ⟨.of_load hm, ?_⟩
    rw [(load_eq_ok_iff.mp hm).2.2]
    exact .refl _
  have hrestart : ∀ m, P m → P m.restart := fun m hm =>
    ⟨hm.1.restart, hm.2.trans ⟨rfl, rfl, rfl, rfl, rfl⟩⟩
  have hlife : P m := h.induction hload hrestart fun m s hm =>
    ⟨hm.1.step s, hm.2.trans (sameStorage_step hm.1 s)⟩
  exact hlife.2

/-- A life begins with limits that fit and a program that fits. -/
theorem Life.fits (h : Life capacity limits program m) :
    (∀ r, Limits.Fits limits capacity r) ∧ program.size ≤ limits.memorySize := by
  induction h with
  | load h => exact ⟨(load_eq_ok_iff.mp h).1, (load_eq_ok_iff.mp h).2.1⟩
  | boot hlimits h =>
      subst hlimits
      exact ⟨(load_eq_ok_iff.mp h).1, (load_eq_ok_iff.mp h).2.1⟩
  | step _ _ ih => exact ih
  | run _ _ _ ih => exact ih

/-! ### Several steps -/

/-- The answers of several steps in order, with the machine and the sink
after them. -/
structure Steps (σ : Type) where
  answers : List (Except Fault Signal)
  machine : Machine
  sink : σ

/-- Several steps, one after the other. -/
def steps {σ : Type} [Sink σ] (m : Machine) (s : σ) : ℕ → Steps σ
  | 0 => ⟨[], m, s⟩
  | n + 1 =>
    let before := m.steps s n
    let out := before.machine.step before.sink
    ⟨before.answers ++ [out.answer], out.machine, out.sink⟩

/-- Several steps leave a well-formed machine well-formed. -/
lemma WellFormed.steps {σ : Type} [Sink σ] (h : m.WellFormed) (s : σ) (n : ℕ) :
    (m.steps s n).machine.WellFormed := by
  induction n with
  | zero => exact h
  | succ n ih => exact ih.step _

/-- Several steps of a well-formed machine leave the storage where it is. -/
lemma sameStorage_steps {σ : Type} [Sink σ] (h : m.WellFormed) (s : σ) (n : ℕ) :
    SameStorage m (m.steps s n).machine := by
  induction n with
  | zero => exact .refl m
  | succ n ih => exact ih.trans (sameStorage_step (h.steps s n) _)

/-- A machine lives on through several steps. -/
lemma Life.steps {σ : Type} [Sink σ] (h : Life capacity limits program m) (s : σ) (n : ℕ) :
    Life capacity limits program (m.steps s n).machine := by
  induction n with
  | zero => exact h
  | succ n ih => exact .step _ ih

end Machine

end Bytecode
