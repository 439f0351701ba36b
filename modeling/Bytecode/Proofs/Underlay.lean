/-
Machines with more words below those that they work on.

* `Machine.above`: a machine whose stack lies above other words, with as much more
  room;
* `Raises`: what is come to on a stack and above other words. It is the same, or a
  word was missing before;
* `raises_effect` (**one instruction above other words**): it neither looks at them
  nor moves them;
* `step_above` (**one step**): the same, unless it lacks a word;
* `words_below_do_not_matter`: the same of any number of steps.
-/
import Mathlib
import Bytecode.Proofs.Steps

namespace Bytecode

/-- What is come to on a stack, and above other words where it is changed accordingly:
the same, or a word was missing before. -/
inductive Raises {α : Type} (raise : α → α) (x x' : Except Fault α) : Prop
  | same (h : x' = x.map raise)
  | missing {op : Opcode} {offset needed found : ℕ}
      (h : x = .error (.stackUnderflow op offset needed found))

/-- What does not depend on the stack is the same. -/
lemma Raises.refl {α : Type} (x : Except Fault α) : Raises id x x := by
  refine .same ?_
  rw [Except.map_id]
  rfl

/-- The effect above other words. -/
def Effect.above (e : Effect) (below : List Word) : Effect :=
  { e with stack := e.stack ++ below }

namespace Machine

/-- The machine with other words below its stack, and with as much more room. -/
def above (m : Machine) (below : List Word) : Machine :=
  { m with
    stack := m.stack ++ below
    limits := { m.limits with stackSize := m.limits.stackSize + below.length } }

variable {m : Machine} {below : List Word}

/-- A machine is well-formed above other words, if its storage has room for them. -/
lemma WellFormed.above (h : m.WellFormed)
    (hroom : m.limits.stackSize + below.length ≤ m.stackCapacity) :
    (m.above below).WellFormed :=
  { h with
    one_le_stackSize := Nat.le_add_right_of_le h.one_le_stackSize
    stackSize_le := hroom
    depth_le := by
      have hdepth := h.depth_le
      rw [depth] at hdepth
      simpa [Machine.above, depth] using hdepth }

/-! ### One instruction -/

/-- A push finds room above other words exactly if it finds room without them. -/
lemma pushing_above (m : Machine) (below : List Word) (v : Word) (next : ℕ) :
    (m.above below).pushing v next =
      (m.pushing v next).map (Option.map (Effect.above · below)) := by
  have hdepth : (m.above below).depth < (m.above below).limits.stackSize ↔
      m.depth < m.limits.stackSize := by
    simp [above, depth]
  rw [pushing, pushing, ite_congr (propext hdepth) (fun _ => rfl) (fun _ => rfl)]
  split_ifs with hroom
  · rfl
  · rfl

/-- An operation on two words leaves those below them. -/
lemma raises_combining (m : Machine) (below : List Word) (op : Arithmetic) (next : ℕ) :
    Raises (Option.map (Effect.above · below)) (m.combining op next)
      ((m.above below).combining op next) := by
  rw [combining, combining, above]
  rcases m.stack with _ | ⟨upper, _ | ⟨lower, rest⟩⟩
  · exact .missing rfl
  · exact .missing rfl
  · refine .same ?_
    dsimp only [List.cons_append]
    cases op.result? lower upper with
    | none => rfl
    | some v => rfl

/-- What takes the top of the stack leaves the words below it. -/
lemma raises_taking (m : Machine) (below : List Word) (op : Opcode)
    {f : Word → List Word → Effect}
    (hf : ∀ v rest, f v (rest ++ below) = (f v rest).above below) :
    Raises (Option.map (Effect.above · below))
      (match m.stack with
        | [] => .error (m.underflow op m.ip 1)
        | v :: rest => .ok (some (f v rest)))
      (match (m.above below).stack with
        | [] => .error ((m.above below).underflow op m.ip 1)
        | v :: rest => .ok (some (f v rest))) := by
  rw [above]
  cases m.stack with
  | nil => exact .missing rfl
  | cons v rest =>
      refine .same ?_
      dsimp only [List.cons_append]
      rw [hf]
      rfl

/-- Where a jump leads has nothing to do with the stack. -/
lemma destination_above (m : Machine) (below : List Word) (offset : ℕ) (target : UInt16) :
    (m.above below).destination offset target = m.destination offset target :=
  rfl

/-- A conditional jump looks at the top of the stack alone. -/
lemma raises_branch (m : Machine) (below : List Word) (op : Opcode) (target : UInt16)
    (test : Word → Bool) (next : ℕ) :
    Raises id (m.branch op m.ip target test next)
      ((m.above below).branch op m.ip target test next) := by
  rw [branch, branch, destination_above]
  cases m.destination m.ip target with
  | error fault => exact .same rfl
  | ok destination =>
      rw [peek, peek, top?, top?, above]
      cases m.stack with
      | nil => exact .missing rfl
      | cons v rest => exact .same rfl

/-- A jump goes where it goes above other words. -/
lemma raises_jumping (m : Machine) (below : List Word) {destination destination' : Except Fault ℕ}
    (h : Raises id destination destination') :
    Raises (Option.map (Effect.above · below)) (m.jumping destination)
      ((m.above below).jumping destination') := by
  cases h with
  | same h =>
      subst h
      cases destination with
      | error fault => exact .same rfl
      | ok offset => exact .same rfl
  | missing h =>
      subst h
      exact .missing rfl

/-- **One instruction above other words**: it comes to the same and leaves them, or it
lacks a word without them. -/
theorem raises_effect (m : Machine) (below : List Word) (i : Instruction) (next : ℕ) :
    Raises (Option.map (Effect.above · below)) (m.effect i next)
      ((m.above below).effect i next) := by
  cases i with
  | nop => exact .same rfl
  | push v => exact .same (pushing_above m below v next)
  | pop => exact raises_taking m below .pop fun _ _ => rfl
  | load r =>
      have hregister : (m.above below).register? r = m.register? r := rfl
      rw [effect, effect, hregister]
      cases m.register? r with
      | none => exact .same rfl
      | some v => exact .same (pushing_above m below v next)
  | store r =>
      have hlimit : (m.above below).limits.registerCount = m.limits.registerCount := rfl
      rw [effect, effect, hlimit]
      by_cases hr : m.limits.registerCount ≤ r.toNat
      · rw [if_pos hr, if_pos hr]
        exact .same rfl
      · rw [if_neg hr, if_neg hr]
        exact raises_taking m below .store fun _ _ => rfl
  | jmp target => exact raises_jumping m below (.refl (m.destination m.ip target))
  | jz target => exact raises_jumping m below (raises_branch m below .jz target (· == 0) next)
  | jnz target => exact raises_jumping m below (raises_branch m below .jnz target (· != 0) next)
  | add => exact raises_combining m below .add next
  | sub => exact raises_combining m below .sub next
  | mul => exact raises_combining m below .mul next
  | div => exact raises_combining m below .div next
  | print => exact raises_taking m below .print fun _ _ => rfl
  | stop => exact .same rfl

/-- The next instruction above other words. -/
lemma raises_nextEffect (m : Machine) (below : List Word) :
    Raises (Option.map (Effect.above · below)) m.nextEffect (m.above below).nextEffect := by
  have hfetch : (m.above below).fetch = m.fetch := rfl
  rw [nextEffect, nextEffect, hfetch]
  cases m.fetch with
  | error fault => exact .same rfl
  | ok found => exact raises_effect m below found.1 found.2

/-! ### Steps -/

variable {σ : Type} [Sink σ]

/-- What an effect comes to above other words. -/
lemma settle_realise_above (m : Machine) (below : List Word) (s : σ)
    (x : Except Fault (Option Effect)) :
    settle ((m.above below).realise s (x.map (Option.map (Effect.above · below)))) =
      { settle (m.realise s x) with machine := (settle (m.realise s x)).machine.above below } := by
  cases x with
  | error fault => rfl
  | ok effect? =>
      cases effect? with
      | none => rfl
      | some e =>
          have hprinted : (e.above below).printed? = e.printed? := rfl
          dsimp only [Except.map, Option.map]
          rw [realise, realise, hprinted]
          cases e.printed? with
          | none => rfl
          | some v =>
              dsimp only
              cases Sink.print s v with
              | ok s' => rfl
              | error s' => rfl

/-- **One step above other words**: it comes to the same and leaves them, or it lacks a
word without them. -/
theorem step_above (h : m.WellFormed)
    (hroom : m.limits.stackSize + below.length ≤ m.stackCapacity) (s : σ)
    (hok : ∀ op offset needed found,
      (m.step s).answer ≠ .error (.stackUnderflow op offset needed found)) :
    (m.above below).step s = { m.step s with machine := (m.step s).machine.above below } := by
  by_cases hready : m.status = .ready
  · rw [step_of_ready (h.above hroom) hready, step_of_ready h hready]
    cases raises_nextEffect m below with
    | same heq => rw [heq, settle_realise_above]
    | @missing op offset needed found hmissing =>
        refine absurd ?_ (hok op offset needed found)
        rw [step_of_ready h hready, hmissing]
        rfl
  · have hready' : (m.above below).status ≠ .ready := hready
    rw [step_of_not_ready hready, step_of_not_ready hready']
    rfl

/-- **The words below do not matter**: put other words below the stack of a machine, and
raise the limit of its stack by as many, within its capacity. As long as the machine
without them lacks no word, any steps answer the same above them, with the same fault
if there is one, and come to the same machine and the same sink, with the other words
below its stack as they were. -/
theorem words_below_do_not_matter (h : m.WellFormed)
    (hroom : m.limits.stackSize + below.length ≤ m.stackCapacity) (s : σ) {n : ℕ}
    (hok : ∀ op offset needed found,
      .error (.stackUnderflow op offset needed found) ∉ (m.steps s n).answers) :
    (m.above below).steps s n =
      { m.steps s n with machine := (m.steps s n).machine.above below } := by
  induction n with
  | zero => rfl
  | succ n ih =>
      simp only [steps, List.mem_append, List.mem_singleton, not_or, forall_and] at hok
      obtain ⟨hbefore, hlast⟩ := hok
      have hstorage := sameStorage_steps h s n
      rw [steps, steps, ih hbefore]
      dsimp only
      rw [step_above (h.steps s n) (by rwa [hstorage.limits_eq, hstorage.stackCapacity_eq])]
      exact fun op offset needed found heq => hlast op offset needed found heq.symm

/-- `PUSH 1`, `PUSH 2`, `ADD`, `PUSH 3` and `PUSH 4` with room for two words, and the same
above two other words: the last word overflows both stacks. -/
theorem words_below_do_not_matter_for_overflow :
    let m := fresh ⟨8, 4, 32⟩ ⟨2, 3, 21⟩
      #[1, 1, 0, 0, 0, 1, 2, 0, 0, 0, 8, 1, 3, 0, 0, 0, 1, 4, 0, 0, 0]
    let out := (m.above [9, 8]).steps (Tape.blank 0) 5
    out.answers = List.replicate 4 (.ok .ready) ++ [.error (.stackOverflow 16 4)] ∧
      out.machine.stack = [3, 3, 9, 8] := by
  intro m out
  have hload : load ⟨8, 4, 32⟩ ⟨2, 3, 21⟩
      #[1, 1, 0, 0, 0, 1, 2, 0, 0, 0, 8, 1, 3, 0, 0, 0, 1, 4, 0, 0, 0] = .ok m :=
    load_eq_ok_iff.mpr ⟨fun r => by cases r <;> decide, by decide, rfl⟩
  have hanswers : (m.steps (Tape.blank 0) 5).answers =
      List.replicate 4 (.ok .ready) ++ [.error (.stackOverflow 16 4)] := by
    decide +kernel
  have hstack : (m.steps (Tape.blank 0) 5).machine.stack = [3, 3] := by decide +kernel
  have hsteps : out = _ := words_below_do_not_matter (.of_load hload) (by decide) (Tape.blank 0)
    (by simp [hanswers])
  rw [hsteps]
  exact ⟨hanswers, congrArg (· ++ [9, 8]) hstack⟩

end Machine

end Bytecode
