/-
What an instruction comes to on a well-formed machine, said at once and
not as changes in place.

* `Effect`: the stack and the instruction pointer that an instruction
  leaves, and the register that it sets or the word that it prints;
* `Machine.effect`: the effect of an instruction, or the fault that keeps
  it from having any;
* `run_execute` (**execution in place**): on a well-formed machine the
  changes in place come to the effect, and a fault undoes nothing because
  nothing has been done;
* `does_of_effect` (**what an effect does**): which instructions store and
  print, and what;
* `transition_step` (**what a step can come to**): the five outcomes of a
  step of a well-formed machine that is ready;
* `step_of_not_ready`: any other machine answers for its status, and nothing
  changes.
-/
import Mathlib
import Bytecode.Proofs.WellFormed

namespace Bytecode

/-- What an instruction does apart from changing the stack and going on. -/
inductive Deed where
  | nothing
  /-- Sets a register. -/
  | store (r : UInt8) (v : Word)
  /-- Prints a word. -/
  | print (v : Word)

/-- What an instruction leaves behind when it neither faults nor ends the
program. -/
structure Effect where
  stack : List Word
  ip : ℕ
  deed : Deed := .nothing

/-- The register that is set, and its new value. -/
def Effect.stored? (e : Effect) : Option (UInt8 × Word) :=
  match e.deed with
  | .store r v => some (r, v)
  | _ => none

/-- The word that is printed. -/
def Effect.printed? (e : Effect) : Option Word :=
  match e.deed with
  | .print v => some v
  | _ => none

/-- What sets a register prints nothing. -/
lemma Effect.printed?_eq_none {e : Effect} {stored : UInt8 × Word} (h : e.stored? = some stored) :
    e.printed? = none := by
  obtain ⟨stack, ip, deed⟩ := e
  cases deed with
  | store r v => rfl
  | nothing => cases h
  | print v => cases h

/-- The answer of a step that leaves a status. -/
def Status.answer : Status → Except Fault Signal
  | ready => .ok .ready
  | stopped => .ok .stopped
  | faulted fault => .error fault

/-- No two statuses leave the same answer. -/
lemma Status.answer_injective : Function.Injective Status.answer := by
  intro status status' h
  cases status <;> cases status' <;> cases h <;> rfl

namespace Machine

variable {σ : Type}

/-! ### The effect of an instruction -/

/-- The effect of putting a word on the stack. -/
def pushing (m : Machine) (v : Word) (next : ℕ) : Except Fault (Option Effect) :=
  if m.depth < m.limits.stackSize then .ok (some { stack := v :: m.stack, ip := next })
  else .error (.stackOverflow m.ip v)

/-- The effect of an operation on the two topmost words. -/
def combining (m : Machine) (op : Arithmetic) (next : ℕ) : Except Fault (Option Effect) :=
  match m.stack with
  | upper :: lower :: rest =>
    match op.result? lower upper with
    | some v => .ok (some { stack := v :: rest, ip := next })
    | none => .error (.divisionByZero m.ip)
  | _ => .error (m.underflow op.opcode m.ip 2)

/-- The effect of a jump, given the offset that it leads to. -/
def jumping (m : Machine) (destination : Except Fault ℕ) : Except Fault (Option Effect) :=
  match destination with
  | .ok offset => .ok (some { stack := m.stack, ip := offset })
  | .error fault => .error fault

/-- The effect of an instruction with another one behind it, none if it
ends the program. -/
def effect (m : Machine) (i : Instruction) (next : ℕ) : Except Fault (Option Effect) :=
  match i with
  | .nop => .ok (some { stack := m.stack, ip := next })
  | .push v => m.pushing v next
  | .pop =>
    match m.stack with
    | [] => .error (m.underflow .pop m.ip 1)
    | _ :: rest => .ok (some { stack := rest, ip := next })
  | .load r =>
    match m.register? r with
    | none => .error (.invalidRegister m.ip r)
    | some v => m.pushing v next
  | .store r =>
    if m.limits.registerCount ≤ r.toNat then .error (.invalidRegister m.ip r)
    else
      match m.stack with
      | [] => .error (m.underflow .store m.ip 1)
      | v :: rest => .ok (some { stack := rest, ip := next, deed := .store r v })
  | .jmp target => m.jumping (m.destination m.ip target)
  | .jz target => m.jumping (m.branch .jz m.ip target (· == 0) next)
  | .jnz target => m.jumping (m.branch .jnz m.ip target (· != 0) next)
  | .add => m.combining .add next
  | .sub => m.combining .sub next
  | .mul => m.combining .mul next
  | .div => m.combining .div next
  | .print =>
    match m.stack with
    | [] => .error (m.underflow .print m.ip 1)
    | v :: rest => .ok (some { stack := rest, ip := next, deed := .print v })
  | .stop => .ok none

/-- The effect of the next instruction. -/
def nextEffect (m : Machine) : Except Fault (Option Effect) :=
  match m.fetch with
  | .error fault => .error fault
  | .ok (i, next) => m.effect i next

/-- The machine after an effect. -/
def after (m : Machine) (e : Effect) : Machine :=
  { m with
    stack := e.stack
    ip := e.ip
    registers :=
      match e.stored? with
      | none => m.registers
      | some (r, v) => m.registers.setIfInBounds r.toNat v }

/-- What an effect comes to: the sink is offered what is printed, and if it
refuses, nothing but the sink has changed. -/
def realise [Sink σ] (m : Machine) (s : σ) :
    Except Fault (Option Effect) → EStateM.Result Fault (Machine × σ) Signal
  | .error fault => .error fault (m, s)
  | .ok none => .ok .stopped (m, s)
  | .ok (some e) =>
    match e.printed? with
    | none => .ok .ready (m.after e, s)
    | some v =>
      match Sink.print s v with
      | .ok s => .ok .ready (m.after e, s)
      | .error s => .error (.outputRefused m.ip) (m, s)

/-! ### Fetching -/

/-- What is fetched is the instruction at the instruction pointer, with its
end. -/
lemma fetch_eq (m : Machine) :
    m.fetch =
      if m.limits.memorySize ≤ m.ip then .error (.undecodable (.pastEnd m.ip))
      else
        match m.code.decodeAt m.ip with
        | .ok i => .ok (i, m.ip + i.size)
        | .error e => .error (.undecodable e) := by
  rw [fetch]
  have hfst := Decoder.decode_fst ⟨m.code, m.ip⟩
  cases hd : (Decoder.mk m.code m.ip).decode with
  | mk result d =>
      rw [hd] at hfst
      rw [← hfst]
      cases result with
      | error e => rfl
      | ok i =>
          have hpos := Decoder.position_decode (d := ⟨m.code, m.ip⟩) (i := i) (by rw [hd])
          rw [hd] at hpos
          dsimp only at hpos ⊢
          rw [hpos]

/-- An instruction that is fetched lies within the limit of the memory. -/
lemma fetch_eq_ok {m : Machine} (h : m.WellFormed) {i : Instruction} {next : ℕ}
    (hf : m.fetch = .ok (i, next)) :
    m.code.decodeAt m.ip = .ok i ∧ next = m.ip + i.size ∧ next ≤ m.limits.memorySize := by
  rw [fetch_eq] at hf
  split_ifs at hf with hip
  cases hd : m.code.decodeAt m.ip with
  | error e => simp [hd] at hf
  | ok j =>
      have hend := Code.add_size_le_of_decodeAt hd
      rw [size_code h.memorySize_le] at hend
      simp only [hd, Except.ok.injEq, Prod.mk.injEq] at hf
      obtain ⟨rfl, rfl⟩ := hf
      exact ⟨rfl, rfl, hend⟩

/-! ### Actions -/

section Actions

variable {m : Machine} {offset : ℕ} {s : σ}

/-- Looking at a machine changes nothing. -/
lemma run_look {α : Type} (f : Machine → Except Fault α) :
    (look f).run (m, s) =
      match f m with
      | .ok a => .ok a (m, s)
      | .error fault => .error fault (m, s) := by
  rw [look, EStateM.run_bind, EStateM.run_get]
  dsimp only
  cases f m with
  | ok a => rfl
  | error fault => rfl

/-- A change is made whole or not at all. -/
lemma run_change (f : Machine → Option Machine) (fault : Fault) :
    (change f fault).run (m, s) =
      match f m with
      | some m => .ok () (m, s)
      | none => .error fault (m, s) := by
  rw [change, EStateM.run_bind, EStateM.run_get]
  dsimp only
  cases f m with
  | some m => rfl
  | none => rfl

/-- A push fails at the limit. Below the limit the storage has room. -/
lemma run_push (h : m.limits.stackSize ≤ m.stackCapacity) (v : Word) :
    (push offset v).run (m, s) =
      if m.depth < m.limits.stackSize then .ok () ({ m with stack := v :: m.stack }, s)
      else .error (.stackOverflow offset v) (m, s) := by
  rw [push, EStateM.run_bind, EStateM.run_get]
  dsimp only
  by_cases hd : m.depth < m.limits.stackSize
  · have hroom : m.pushed? v = some { m with stack := v :: m.stack } :=
      if_pos (lt_of_lt_of_le hd h)
    rw [if_neg (by omega), if_pos hd, run_change, hroom]
  · rw [if_pos (by omega), if_neg hd]
    rfl

/-- A pop fails on the empty stack alone. -/
lemma run_pop (op : Opcode) :
    (pop op offset).run (m, s) =
      match m.stack with
      | [] => .error (m.underflow op offset 1) (m, s)
      | v :: rest => .ok v ({ m with stack := rest }, s) := by
  rw [pop, EStateM.run_bind, EStateM.run_get]
  dsimp only [popped?]
  cases m.stack with
  | nil => rfl
  | cons v rest => rfl

/-- An operation fails before it drops a word, or not at all: below two
words there are two. -/
lemma run_combine (op : Arithmetic) :
    (combine op offset).run (m, s) =
      match m.stack with
      | upper :: lower :: rest =>
        match op.result? lower upper with
        | some v => .ok () ({ m with stack := v :: rest }, s)
        | none => .error (.divisionByZero offset) (m, s)
      | _ => .error (m.underflow op.opcode offset 2) (m, s) := by
  rw [combine, EStateM.run_bind, EStateM.run_get]
  dsimp only
  rcases hs : m.stack with _ | ⟨upper, _ | ⟨lower, rest⟩⟩
  · rfl
  · rfl
  · have hpop : m.popped? = some (upper, { m with stack := lower :: rest }) := by
      rw [popped?, hs]
    dsimp only
    cases op.result? lower upper with
    | none => rfl
    | some v =>
        dsimp only
        rw [EStateM.run_bind, run_change, hpop]
        rfl

/-- A register below the limit can be set. -/
lemma run_write (h : m.limits.registerCount ≤ m.registers.size) {r : UInt8}
    (hr : r.toNat < m.limits.registerCount) (v : Word) :
    (write offset r v).run (m, s) =
      .ok () ({ m with registers := m.registers.setIfInBounds r.toNat v }, s) := by
  have hslot : m.slot offset r = .ok r.toNat := if_neg (by omega)
  have hstore : m.stored? r.toNat v
      = some { m with registers := m.registers.setIfInBounds r.toNat v } :=
    if_pos (by omega)
  rw [write, EStateM.run_bind, run_look, hslot]
  dsimp only
  rw [run_change, hstore]

/-- A word is printed, or the sink alone is changed. -/
lemma run_offer [Sink σ] (v : Word) :
    (offer offset v).run (m, s) =
      match Sink.print s v with
      | .ok s => .ok () (m, s)
      | .error s => .error (.outputRefused offset) (m, s) := by
  rw [offer, EStateM.run_bind, EStateM.run_get]
  dsimp only
  cases Sink.print s v with
  | ok s => rfl
  | error s => rfl

end Actions

/-! ### Execution -/

/-- Going on at the offset that a check answers. -/
lemma run_look_resume [Sink σ] {m : Machine} (s : σ) (f : Machine → Except Fault ℕ) :
    (do let offset ← look f; resume offset : Action σ Signal).run (m, s)
      = m.realise s (m.jumping (f m)) := by
  rw [EStateM.run_bind, run_look]
  cases h : f m with
  | ok offset => rfl
  | error fault => rfl

/-- A push, and what follows it. -/
lemma run_push_resume [Sink σ] {m : Machine} (h : m.WellFormed) (s : σ) (v : Word) (next : ℕ) :
    (do push m.ip v; resume next : Action σ Signal).run (m, s)
      = m.realise s (m.pushing v next) := by
  rw [EStateM.run_bind, run_push h.stackSize_le, pushing]
  by_cases hd : m.depth < m.limits.stackSize
  · rw [if_pos hd, if_pos hd]
    rfl
  · rw [if_neg hd, if_neg hd]
    rfl

/-- An operation, and what follows it. -/
lemma run_combine_resume [Sink σ] {m : Machine} (s : σ) (op : Arithmetic) (next : ℕ) :
    (do combine op m.ip; resume next : Action σ Signal).run (m, s)
      = m.realise s (m.combining op next) := by
  rw [EStateM.run_bind, run_combine, combining]
  rcases m.stack with _ | ⟨upper, _ | ⟨lower, rest⟩⟩
  · rfl
  · rfl
  · dsimp only
    cases op.result? lower upper with
    | none => rfl
    | some v => rfl

/-- **Execution in place**: the changes that an instruction makes one
after the other come to its effect. If one of them fails, none has been
made before it. -/
theorem run_execute [Sink σ] {m : Machine} (h : m.WellFormed) (s : σ) (i : Instruction)
    (next : ℕ) :
    (execute m.ip i next).run (m, s) = m.realise s (m.effect i next) := by
  cases i with
  | nop => rfl
  | push v => exact run_push_resume h s v next
  | pop =>
      rw [execute, effect, EStateM.run_bind, run_pop]
      cases m.stack with
      | nil => rfl
      | cons v rest => rfl
  | load r =>
      rw [execute, effect, EStateM.run_bind, run_look]
      by_cases hr : r.toNat < m.limits.registerCount
      · have hlt : r.toNat < m.registers.size := lt_of_lt_of_le hr h.registerCount_le
        have hread : m.read m.ip r = .ok m.registers[r.toNat] := by
          rw [read, slot, if_neg (by omega)]
          simp [bind, Except.bind, hlt]
          rfl
        rw [hread, register?_of_lt h.registerCount_le hr, Array.getElem?_eq_getElem hlt]
        exact run_push_resume h s _ next
      · have hread : m.read m.ip r = .error (.invalidRegister m.ip r) := by
          rw [read, slot, if_pos (by omega)]
          rfl
        rw [hread, register?_of_le h.registerCount_le (by omega)]
        rfl
  | store r =>
      rw [execute, effect, EStateM.run_bind, run_look, slot]
      by_cases hr : m.limits.registerCount ≤ r.toNat
      · rw [if_pos hr, if_pos hr]
        rfl
      · rw [if_neg hr, if_neg hr]
        dsimp only
        rw [EStateM.run_bind, run_pop]
        cases m.stack with
        | nil => rfl
        | cons v rest =>
            -- the pop has left the registers and their limit alone
            have hwrite : (write m.ip r v).run ({ m with stack := rest }, s) = .ok () ({ m with
                stack := rest
                registers := m.registers.setIfInBounds r.toNat v }, s) :=
              run_write (m := { m with stack := rest }) h.registerCount_le
                (Nat.lt_of_not_le hr) v
            dsimp only
            rw [EStateM.run_bind, hwrite]
            rfl
  | jmp target => exact run_look_resume s (·.destination m.ip target)
  | jz target => exact run_look_resume s (·.branch .jz m.ip target (· == 0) next)
  | jnz target => exact run_look_resume s (·.branch .jnz m.ip target (· != 0) next)
  | add => exact run_combine_resume s .add next
  | sub => exact run_combine_resume s .sub next
  | mul => exact run_combine_resume s .mul next
  | div => exact run_combine_resume s .div next
  | print =>
      rw [execute, effect, EStateM.run_bind, run_look, peek, top?]
      cases hs : m.stack with
      | nil => rfl
      | cons v rest =>
          dsimp only [List.head?_cons]
          rw [EStateM.run_bind, run_offer]
          dsimp only [realise, Effect.printed?]
          cases Sink.print s v with
          | error s => rfl
          | ok s =>
              -- what was on top when it was printed is still there to be dropped
              dsimp only
              rw [EStateM.run_bind, run_pop, hs]
              rfl
  | stop => rfl

/-! ### Deeds -/

section Deeds

variable {m : Machine} {i : Instruction} {e : Effect} {next : ℕ}

/-- What an instruction does that has an effect: the word that is stored or
printed is the top of the stack. -/
inductive Does (m : Machine) : Instruction → Deed → Prop
  | store {r : UInt8} {v : Word} (h : m.top? = some v) : Does m (.store r) (.store r v)
  | print {v : Word} (h : m.top? = some v) : Does m .print (.print v)
  | nothing {i : Instruction} (hstore : ∀ r, i ≠ .store r) (hprint : i ≠ .print) :
      Does m i .nothing

/-- A push that has an effect has found room. -/
lemma eq_of_pushing {v : Word} (he : m.pushing v next = .ok (some e)) :
    m.depth < m.limits.stackSize ∧ e = { stack := v :: m.stack, ip := next } := by
  rw [pushing] at he
  split_ifs at he with hroom
  cases he
  exact ⟨hroom, rfl⟩

/-- An operation on two words that has an effect has found them, and leaves a word in
their place. -/
lemma exists_of_combining {op : Arithmetic} (he : m.combining op next = .ok (some e)) :
    ∃ upper lower rest v, m.stack = upper :: lower :: rest ∧
      e = { stack := v :: rest, ip := next } := by
  rw [combining] at he
  rcases hs : m.stack with _ | ⟨upper, _ | ⟨lower, rest⟩⟩
  · simp [hs] at he
  · simp [hs] at he
  · cases hv : op.result? lower upper with
    | none => simp [hs, hv] at he
    | some v =>
        simp only [hs, hv, Except.ok.injEq, Option.some.injEq] at he
        exact ⟨upper, lower, rest, v, rfl, he.symm⟩

/-- A jump that has an effect goes where its check says, with the stack as it is. -/
lemma exists_of_jumping {destination : Except Fault ℕ}
    (he : m.jumping destination = .ok (some e)) :
    ∃ offset, destination = .ok offset ∧ e = { stack := m.stack, ip := offset } := by
  cases destination with
  | error fault => cases he
  | ok offset =>
      cases he
      exact ⟨offset, rfl, rfl⟩

/-- An operation that takes the top of the stack has found a word there. -/
lemma exists_of_taking {fault : Fault} {f : Word → List Word → Effect}
    (he : (match m.stack with
      | [] => .error fault
      | v :: rest => .ok (some (f v rest))) = Except.ok (some e)) :
    ∃ v rest, m.stack = v :: rest ∧ e = f v rest := by
  cases hs : m.stack with
  | nil => simp [hs] at he
  | cons v rest =>
      simp only [hs, Except.ok.injEq, Option.some.injEq] at he
      exact ⟨v, rest, rfl, he.symm⟩

/-- A push neither stores nor prints. -/
lemma deed_of_pushing {v : Word} (he : m.pushing v next = .ok (some e)) : e.deed = .nothing := by
  obtain ⟨-, rfl⟩ := eq_of_pushing he
  rfl

/-- An operation on two words neither stores nor prints. -/
lemma deed_of_combining (op : Arithmetic) (he : m.combining op next = .ok (some e)) :
    e.deed = .nothing := by
  obtain ⟨_, _, _, _, -, rfl⟩ := exists_of_combining he
  rfl

/-- A jump neither stores nor prints. -/
lemma deed_of_jumping {destination : Except Fault ℕ}
    (he : m.jumping destination = .ok (some e)) : e.deed = .nothing := by
  obtain ⟨_, -, rfl⟩ := exists_of_jumping he
  rfl

/-- **What an effect does**: a `STORE` stores the top of the stack, a `PRINT`
prints it, and no other instruction does either. -/
theorem does_of_effect (he : m.effect i next = .ok (some e)) : m.Does i e.deed := by
  have hnothing (hstore : ∀ r, i ≠ .store r) (hprint : i ≠ .print) (hdeed : e.deed = .nothing) :
      m.Does i e.deed := by
    rw [hdeed]
    exact .nothing hstore hprint
  cases i with
  | nop =>
      cases he
      exact hnothing (by simp) (by simp) rfl
  | push v => exact hnothing (by simp) (by simp) (deed_of_pushing he)
  | pop =>
      obtain ⟨_, _, _, rfl⟩ := exists_of_taking he
      exact hnothing (by simp) (by simp) rfl
  | load r =>
      rw [effect] at he
      cases hr : m.register? r with
      | none => simp [hr] at he
      | some v => exact hnothing (by simp) (by simp) (deed_of_pushing (by simpa [hr] using he))
  | store r =>
      rw [effect] at he
      split_ifs at he
      obtain ⟨_, _, hs, rfl⟩ := exists_of_taking he
      exact .store (by rw [top?, hs]; rfl)
  | jmp target => exact hnothing (by simp) (by simp) (deed_of_jumping he)
  | jz target => exact hnothing (by simp) (by simp) (deed_of_jumping he)
  | jnz target => exact hnothing (by simp) (by simp) (deed_of_jumping he)
  | add => exact hnothing (by simp) (by simp) (deed_of_combining .add he)
  | sub => exact hnothing (by simp) (by simp) (deed_of_combining .sub he)
  | mul => exact hnothing (by simp) (by simp) (deed_of_combining .mul he)
  | div => exact hnothing (by simp) (by simp) (deed_of_combining .div he)
  | print =>
      obtain ⟨_, _, hs, rfl⟩ := exists_of_taking he
      exact .print (by rw [top?, hs]; rfl)
  | stop => cases he

/-- An effect of the next instruction is that of an instruction that was
fetched. -/
lemma exists_of_nextEffect (he : m.nextEffect = .ok (some e)) :
    ∃ i next, m.fetch = .ok (i, next) ∧ m.effect i next = .ok (some e) := by
  rw [nextEffect] at he
  cases hf : m.fetch with
  | error fault => simp [hf] at he
  | ok found =>
      obtain ⟨i, next⟩ := found
      simp only [hf] at he
      exact ⟨i, next, rfl, he⟩

/-- Only a `PRINT` prints, and it prints the top of the stack. -/
lemma eq_print_of_effect {v : Word} (he : m.effect i next = .ok (some e))
    (hv : e.printed? = some v) : i = .print ∧ m.top? = some v := by
  have hdoes := does_of_effect he
  rw [Effect.printed?] at hv
  generalize e.deed = deed at hdoes hv
  cases hdoes with
  | store _ => cases hv
  | print htop =>
      cases hv
      exact ⟨rfl, htop⟩
  | nothing _ _ => cases hv

/-- Only a `STORE` sets a register, and it sets it to the top of the stack. -/
lemma eq_store_of_effect {r : UInt8} {v : Word} (he : m.effect i next = .ok (some e))
    (hv : e.stored? = some (r, v)) : i = .store r ∧ m.top? = some v := by
  have hdoes := does_of_effect he
  rw [Effect.stored?] at hv
  generalize e.deed = deed at hdoes hv
  cases hdoes with
  | store htop =>
      cases hv
      exact ⟨rfl, htop⟩
  | print _ => cases hv
  | nothing _ _ => cases hv

/-- A `STORE` that has an effect sets its register. -/
lemma stored?_of_effect_store {r : UInt8} (he : m.effect (.store r) next = .ok (some e)) :
    ∃ v, e.stored? = some (r, v) := by
  have hdoes := does_of_effect he
  rw [Effect.stored?]
  generalize e.deed = deed at hdoes
  cases hdoes with
  | store _ => exact ⟨_, rfl⟩
  | nothing hstore _ => exact absurd rfl (hstore r)

end Deeds

/-! ### Steps -/

/-- What a step of a machine that is ready can come to. -/
inductive Transition [Sink σ] (m : Machine) (s : σ) (out : Outcome Signal σ) : Prop
  /-- The instruction faults: nothing but the status changes. -/
  | fault {fault : Fault} (heffect : m.nextEffect = .error fault)
      (hout : out = ⟨.error fault, m.withStatus (.faulted fault), s⟩)
  /-- The program ends: nothing but the status changes. -/
  | stop (heffect : m.nextEffect = .ok none)
      (hout : out = ⟨.ok .stopped, m.withStatus .stopped, s⟩)
  /-- The machine goes on, and nothing is printed. -/
  | proceed {e : Effect} (heffect : m.nextEffect = .ok (some e)) (hprinted : e.printed? = none)
      (hout : out = ⟨.ok .ready, m.after e, s⟩)
  /-- The machine goes on, and the sink has accepted a word. -/
  | print {e : Effect} {v : Word} {s' : σ} (heffect : m.nextEffect = .ok (some e))
      (hprinted : e.printed? = some v) (hsink : Sink.print s v = .ok s')
      (hout : out = ⟨.ok .ready, m.after e, s'⟩)
  /-- The sink has refused a word: nothing but the status and the sink
  changes. -/
  | refuse {e : Effect} {v : Word} {s' : σ} (heffect : m.nextEffect = .ok (some e))
      (hprinted : e.printed? = some v) (hsink : Sink.print s v = .error s')
      (hout : out = ⟨.error (.outputRefused m.ip),
        m.withStatus (.faulted (.outputRefused m.ip)), s'⟩)

/-- A step of a well-formed machine that is ready. -/
theorem step_of_ready [Sink σ] {m : Machine} (h : m.WellFormed) (hready : m.status = .ready)
    (s : σ) : m.step s = settle (m.realise s m.nextEffect) := by
  rw [nextEffect]
  cases hfetch : m.fetch with
  | error fault => exact step_of_fetch_error hready hfetch
  | ok found => rw [step_of_fetch hready hfetch, run_execute h]

/-- A machine that is not ready answers for its status, and nothing changes. -/
lemma step_of_not_ready [Sink σ] {m : Machine} (hready : m.status ≠ .ready) (s : σ) :
    m.step s = ⟨m.status.answer, m, s⟩ := by
  rw [step, stepNoting]
  cases hm : m.status with
  | ready => exact absurd hm hready
  | stopped => rfl
  | faulted fault => rfl

/-- A machine that is ready is ready after an effect. -/
lemma withStatus_after {m : Machine} (hready : m.status = .ready) (e : Effect) :
    (m.after e).withStatus .ready = m.after e := by
  rw [← hready]
  rfl

/-- **What a step can come to.** -/
theorem transition_step [Sink σ] {m : Machine} (h : m.WellFormed) (hready : m.status = .ready)
    (s : σ) : Transition m s (m.step s) := by
  rw [step_of_ready h hready]
  cases he : m.nextEffect with
  | error fault => exact .fault he rfl
  | ok effect? =>
      cases effect? with
      | none => exact .stop he rfl
      | some e =>
          rw [realise]
          cases hp : e.printed? with
          | none => exact .proceed he hp (by rw [← withStatus_after hready e]; rfl)
          | some v =>
              dsimp only
              cases hs : Sink.print s v with
              | ok s' => exact .print he hp hs (by rw [← withStatus_after hready e]; rfl)
              | error s' => exact .refuse he hp hs rfl

end Machine

end Bytecode
