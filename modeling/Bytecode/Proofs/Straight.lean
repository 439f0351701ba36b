/-
Instructions that stand one after the other and are executed in this order.

* `Code.Holds`: instructions stand one after the other at a position of code;
* `Machine.LeadsTo`: several steps that all go on and print nothing, and the
  machine that they lead to;
* `step_of_decodeAt`: a step executes the instruction that is decoded;
* `Instruction.compute?`: what an instruction makes of a stack, if it looks at
  nothing but the stack and goes on behind itself;
* `leadsTo_of_computeAll?` (**straight code**): as many steps as there are such
  instructions leave what these make of the stack;
* `LeadsTo.returns`: a run that is led to an instruction that ends it.
-/
import Mathlib
import Bytecode.Proofs.Steps

namespace Bytecode

namespace Code

variable {c : Code} {p : ℕ}

/-- Instructions stand one after the other at a position. -/
def Holds (c : Code) (p : ℕ) (instructions : List Instruction) : Prop :=
  instructions.flatMap Instruction.encode <+: c.toList.drop p

instance (instructions : List Instruction) : Decidable (c.Holds p instructions) :=
  inferInstanceAs (Decidable (_ <+: _))

/-- Of instructions that stand one after the other, the first ones stand there,
and the others behind them. -/
lemma Holds.of_append {before after : List Instruction} (h : c.Holds p (before ++ after)) :
    c.Holds p before ∧ c.Holds (p + (before.flatMap Instruction.encode).length) after := by
  obtain ⟨rest, hrest⟩ := h
  rw [List.flatMap_append, List.append_assoc] at hrest
  refine ⟨⟨_, hrest⟩, rest, ?_⟩
  rw [← List.drop_drop, ← hrest, List.drop_left]

/-- Of instructions that stand one after the other, the first one is decoded, and
the others stand behind it. -/
lemma Holds.of_cons {i : Instruction} {rest : List Instruction} (h : c.Holds p (i :: rest)) :
    c.decodeAt p = .ok i ∧ c.Holds (p + i.size) rest := by
  obtain ⟨hfirst, hrest⟩ := of_append (show c.Holds p ([i] ++ rest) from h)
  rw [Holds, List.flatMap_singleton] at hfirst
  rw [List.flatMap_singleton, i.length_encode] at hrest
  exact ⟨decodeAt_eq_ok_iff.mpr hfirst, hrest⟩

end Code

namespace Machine

variable {σ : Type} [Sink σ] {m m' m'' : Machine} {s : σ} {k n : ℕ}

/-! ### Steps that go on and print nothing -/

/-- So many steps all answer that the machine is ready, leave the sink as it is, and
lead to another machine. -/
def LeadsTo (m : Machine) (s : σ) (k : ℕ) (m' : Machine) : Prop :=
  m.steps s k = ⟨List.replicate k (.ok .ready), m', s⟩

/-- A step that goes on and prints nothing. -/
lemma leadsTo_of_step (h : m.step s = ⟨.ok .ready, m', s⟩) : m.LeadsTo s 1 m' := by
  rw [LeadsTo, steps_succ', h]
  rfl

/-- Steps lead on from where others have led. -/
lemma LeadsTo.trans (h : m.LeadsTo s k m') (h' : m'.LeadsTo s n m'') :
    m.LeadsTo s (k + n) m'' := by
  rw [LeadsTo] at h h'
  rw [LeadsTo, steps_add, h]
  dsimp only
  rw [h', List.replicate_append_replicate]

/-- Steps lead from a well-formed machine to well-formed ones. -/
lemma LeadsTo.wellFormed (h : m.LeadsTo s k m') (hw : m.WellFormed) : m'.WellFormed := by
  have hafter := hw.steps s k
  rw [h] at hafter
  exact hafter

/-- A run that is led to a step that ends the program answers what this step does, and
leaves what it leaves. -/
lemma LeadsTo.returns (h : m.restart.LeadsTo s k m') {answer : Except Fault Signal}
    {answer' : Except Fault Unit} (hstep : m'.step s = ⟨answer, m'', s⟩)
    (hends : Ends answer answer') : m.Returns s ⟨answer', m'', s⟩ := by
  have hlast : (m.restart.steps s k).machine.step (m.restart.steps s k).sink
      = ⟨answer, m'', s⟩ := by
    rw [h]
    exact hstep
  have hreturns : m.Returns s
      ⟨answer', (m.restart.steps s (k + 1)).machine, (m.restart.steps s (k + 1)).sink⟩ :=
    returns_of_ends (by rwa [hlast])
  rw [steps] at hreturns
  dsimp only at hreturns
  rwa [hlast] at hreturns

/-! ### One instruction -/

section Step

variable {i : Instruction}

/-- The effect of the next instruction is that of the one that is decoded. -/
lemma nextEffect_of_decodeAt (h : m.WellFormed) (hi : m.code.decodeAt m.ip = .ok i) :
    m.nextEffect = m.effect i (m.ip + i.size) := by
  have hend := Code.add_size_le_of_decodeAt hi
  have hpos : 0 < i.size := i.opcode.size_pos
  rw [size_code h.memorySize_le] at hend
  rw [nextEffect, fetch_eq, if_neg (by omega), hi]

/-- A step executes the instruction that is decoded. -/
lemma step_of_decodeAt (h : m.WellFormed) (hready : m.status = .ready)
    (hi : m.code.decodeAt m.ip = .ok i) (s : σ) :
    m.step s = settle (m.realise s (m.effect i (m.ip + i.size))) := by
  rw [step_of_ready h hready, nextEffect_of_decodeAt h hi]

/-- An instruction that has an effect and prints nothing leads where its effect leads. -/
lemma leadsTo_after (h : m.WellFormed) (hready : m.status = .ready)
    (hi : m.code.decodeAt m.ip = .ok i) {e : Effect}
    (he : m.effect i (m.ip + i.size) = .ok (some e)) (hprinted : e.printed? = none) (s : σ) :
    m.LeadsTo s 1 (m.after e) := by
  apply leadsTo_of_step
  rw [step_of_decodeAt h hready hi, he, realise, hprinted]
  exact congrArg (Outcome.mk _ · s) (withStatus_after hready e)

end Step

end Machine

/-! ### Straight code -/

/-- What an operation makes of a stack. -/
def Arithmetic.onStack? (op : Arithmetic) : List Word → Option (List Word)
  | upper :: lower :: rest => (op.result? lower upper).map (· :: rest)
  | _ => none

/-- What an instruction makes of a stack with room for so many words, if it looks at
nothing but the stack and goes on behind itself. -/
def Instruction.compute? (room : ℕ) (i : Instruction) (stack : List Word) :
    Option (List Word) :=
  match i with
  | .nop => some stack
  | .push v => if stack.length < room then some (v :: stack) else none
  | .pop =>
    match stack with
    | [] => none
    | _ :: rest => some rest
  | .add => Arithmetic.add.onStack? stack
  | .sub => Arithmetic.sub.onStack? stack
  | .mul => Arithmetic.mul.onStack? stack
  | .div => Arithmetic.div.onStack? stack
  | .load _ | .store _ | .jmp _ | .jz _ | .jnz _ | .print | .stop => none

/-- What instructions make of a stack, one after the other. -/
def Instruction.computeAll? (room : ℕ) : List Instruction → List Word → Option (List Word)
  | [], stack => some stack
  | i :: rest, stack => (i.compute? room stack).bind (computeAll? room rest)

namespace Machine

variable {σ : Type} [Sink σ] {m : Machine} {stack : List Word}

/-- An operation has the effect that it has on the stack. -/
lemma combining_of_onStack? {op : Arithmetic} (h : op.onStack? m.stack = some stack) (next : ℕ) :
    m.combining op next = .ok (some { stack, ip := next }) := by
  rw [combining]
  rcases hs : m.stack with _ | ⟨upper, _ | ⟨lower, rest⟩⟩
  · simp [hs, Arithmetic.onStack?] at h
  · simp [hs, Arithmetic.onStack?] at h
  · rw [hs, Arithmetic.onStack?] at h
    obtain ⟨v, hv, rfl⟩ := Option.map_eq_some_iff.mp h
    dsimp only
    rw [hv]

/-- An instruction that looks at nothing but the stack has the effect that it has on
the stack. -/
lemma effect_of_compute? {i : Instruction}
    (h : i.compute? m.limits.stackSize m.stack = some stack) (next : ℕ) :
    m.effect i next = .ok (some { stack, ip := next }) := by
  cases i with
  | nop =>
      cases h
      rfl
  | push v =>
      rw [Instruction.compute?] at h
      split_ifs at h with hroom
      cases h
      exact if_pos hroom
  | pop =>
      rw [effect]
      cases hs : m.stack with
      | nil =>
          rw [hs] at h
          cases h
      | cons v rest =>
          rw [hs] at h
          cases h
          rfl
  | add => exact combining_of_onStack? h next
  | sub => exact combining_of_onStack? h next
  | mul => exact combining_of_onStack? h next
  | div => exact combining_of_onStack? h next
  | load r => cases h
  | store r => cases h
  | jmp target => cases h
  | jz target => cases h
  | jnz target => cases h
  | print => cases h
  | stop => cases h

/-- **Straight code**: as many steps as there are instructions that look at nothing but
the stack lead behind them, to what they make of the stack. Nothing else changes. -/
theorem leadsTo_of_computeAll? {instructions : List Instruction} (h : m.WellFormed)
    (hready : m.status = .ready) (hcode : m.code.Holds m.ip instructions)
    (hcompute : Instruction.computeAll? m.limits.stackSize instructions m.stack = some stack)
    (s : σ) :
    m.LeadsTo s instructions.length
      { m with ip := m.ip + (instructions.flatMap Instruction.encode).length, stack } := by
  induction instructions generalizing m with
  | nil =>
      cases hcompute
      rfl
  | cons i rest ih =>
      obtain ⟨hi, hrest⟩ := hcode.of_cons
      obtain ⟨between, hfirst, hothers⟩ := Option.bind_eq_some_iff.mp hcompute
      have hstep : m.LeadsTo s 1 { m with ip := m.ip + i.size, stack := between } :=
        leadsTo_after h hready hi (effect_of_compute? hfirst _) rfl s
      have hon := hstep.trans (ih (hstep.wellFormed h) hready hrest hothers)
      rw [List.length_cons, Nat.add_comm, List.flatMap_cons, List.length_append, i.length_encode,
        ← Nat.add_assoc]
      exact hon

end Machine

end Bytecode
