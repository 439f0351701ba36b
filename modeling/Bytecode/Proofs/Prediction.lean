/-
The listing of a program predicts its run, if every jump leads to a line of
the listing or behind the program.

* `Script.Follows`: a machine stands at the line of an interpreter;
* `Script.turn_eq_map` (**one instruction after the other**): the turn of a
  line is the effect of the machine, read with lines;
* `Script.step_follows`: a step answers the same on both sides, and the
  machine stays at the line of the interpreter;
* `Fault.Astray`: the faults over where a program has gone. A script whose
  jumps have lines to lead to has one of them behind its last line alone;
* `listing_predicts_run` (**prediction**): all of this, over any number of
  steps from the start.
-/
import Mathlib
import Bytecode.Proofs.Coverage
import Bytecode.Proofs.Steps

namespace Bytecode

namespace Script

variable {c : Script} {m : Machine} {st : State}

/-! ### Turns and effects -/

/-- A machine stands at the line of an interpreter. -/
structure Follows (c : Script) (m : Machine) (st : State) : Prop where
  ip_eq : m.ip = c.place st.line
  stack_eq : m.stack = st.stack
  register_eq : ∀ k < c.registerCount, m.visibleRegisters[k]? = some (st.registers k)
  status_eq : m.status = st.status

/-- A turn, read as an effect on a machine. -/
def effectOf (c : Script) (t : Turn) : Effect :=
  ⟨t.stack, c.place t.line, t.deed⟩

/-- What a line comes to, read as what an instruction comes to. -/
def readTurn (c : Script) : Except Fault (Option Turn) → Except Fault (Option Effect) :=
  Except.map (Option.map c.effectOf)

section Turns

variable {offset : ℕ}

/-- Both have as many words on the stack. -/
lemma Follows.length_stack (hf : Follows c m st) : st.stack.length = m.depth := by
  rw [← hf.stack_eq]
  rfl

/-- A push comes to the same. -/
lemma push_eq_map (hc : c.Covers m) (hf : Follows c m st) (hip : m.ip = offset) (v : Word) :
    m.pushing v (c.place (st.line + 1)) = c.readTurn (c.push st offset v) := by
  rw [Machine.pushing, push, hf.length_stack, hc.stackSize_eq, hip, hf.stack_eq]
  split_ifs with hd
  · rfl
  · rfl

/-- An operation on two words comes to the same. -/
lemma combine_eq_map (hf : Follows c m st) (hip : m.ip = offset) (op : Arithmetic) :
    m.combining op (c.place (st.line + 1)) = c.readTurn (st.combine op offset) := by
  rw [Machine.combining, State.combine, ← hf.stack_eq, hip]
  rcases hs : m.stack with _ | ⟨upper, _ | ⟨lower, rest⟩⟩
  · rw [Machine.underflow, Machine.depth, hs]
    rfl
  · rw [Machine.underflow, Machine.depth, hs]
    rfl
  · dsimp only
    cases op.result? lower upper with
    | none => rfl
    | some v => rfl

/-- The top of the stack is there, or both have the same fault. -/
lemma withTop_eq_map (hf : Follows c m st) (hip : m.ip = offset) (op : Opcode)
    (turn : Word → List Word → Except Fault (Option Turn)) :
    c.readTurn (st.withTop op offset turn) =
      match m.stack with
      | [] => .error (m.underflow op m.ip 1)
      | v :: rest => c.readTurn (turn v rest) := by
  rw [State.withTop, ← hf.stack_eq, hip]
  cases hs : m.stack with
  | nil =>
      rw [Machine.underflow, Machine.depth, hs]
      rfl
  | cons v rest => rfl

/-- A register is there, or both have the same fault. -/
lemma withRegister_eq_map (hc : c.Covers m) (r : UInt8) (turn : Except Fault (Option Turn)) :
    c.readTurn (c.withRegister offset r turn) =
      if m.limits.registerCount ≤ r.toNat then .error (.invalidRegister offset r)
      else c.readTurn turn := by
  rw [withRegister, hc.registerCount_eq]
  by_cases hr : r.toNat < m.limits.registerCount
  · rw [if_pos hr, if_neg (by omega)]
  · rw [if_neg hr, if_pos (by omega)]
    rfl

/-- A conditional jump comes to the same, if there is a line at its
target. -/
lemma branch_eq_map (hc : c.Covers m) (h : m.WellFormed) (hf : Follows c m st)
    (hip : m.ip = offset) (op : Opcode) {target : UInt16}
    (hline : ∃ line, c.lineAt? target.toNat = some line) {p : Word → Prop} [DecidablePred p]
    {test : Word → Bool} (htest : ∀ v, test v = true ↔ p v) :
    m.jumping (m.branch op m.ip target test (c.place (st.line + 1))) =
      c.readTurn (c.withLine offset target fun line => st.withTop op offset fun v _ =>
        if p v then .ok (some ⟨st.stack, line, .nothing⟩) else st.onward st.stack) := by
  obtain ⟨line, hline⟩ := hline
  have hlt := hc.lt_of_lineAt? h hline
  have hto : m.destination m.ip target = .ok (c.place line) := by
    rw [Machine.destination, if_neg (by omega), (place_of_lineAt? hline).1]
  rw [withLine, hline]
  dsimp only
  rw [withTop_eq_map hf hip, Machine.branch, Machine.peek, Machine.top?, hto, ← hf.stack_eq]
  cases hs : m.stack with
  | nil => rfl
  | cons v rest =>
      dsimp only [List.head?_cons, bind, Except.bind, pure, Except.pure]
      rw [← hs]
      by_cases hv : p v
      · rw [if_pos hv, if_pos ((htest v).mpr hv)]
        rfl
      · rw [if_neg hv, if_neg (fun ht => hv ((htest v).mp ht))]
        rfl

/-- **One instruction after the other**: the turn of an instruction is the
effect of the machine, with the same faults in the same order. -/
theorem turn_eq_map (hc : c.Covers m) (h : m.WellFormed) (hf : Follows c m st)
    (hip : m.ip = offset) {i : Instruction}
    (htarget : ∀ target, i.target? = some target → ∃ line, c.lineAt? target.toNat = some line) :
    m.effect i (c.place (st.line + 1)) = c.readTurn (c.turn st offset i) := by
  cases i with
  | nop =>
      rw [Machine.effect, hf.stack_eq]
      rfl
  | push v => exact push_eq_map hc hf hip v
  | pop =>
      rw [turn, withTop_eq_map hf hip, Machine.effect]
      cases m.stack with
      | nil => rfl
      | cons v rest => rfl
  | load r =>
      rw [turn, withRegister_eq_map hc, Machine.effect, hip]
      by_cases hr : m.limits.registerCount ≤ r.toNat
      · rw [if_pos hr, Machine.register?_of_le h.registerCount_le hr]
      · have hv := hf.register_eq r.toNat (by rw [hc.registerCount_eq]; omega)
        rw [if_neg hr, Machine.register?, hv]
        exact push_eq_map hc hf hip _
  | store r =>
      rw [turn, withRegister_eq_map hc, withTop_eq_map hf hip, Machine.effect, hip]
      split_ifs with hr
      · rfl
      · cases m.stack with
        | nil => rfl
        | cons v rest => rfl
  | jmp target =>
      obtain ⟨line, hline⟩ := htarget target rfl
      have hlt := hc.lt_of_lineAt? h hline
      rw [turn, withLine, hline, Machine.effect, Machine.destination, if_neg (by omega),
        ← (place_of_lineAt? hline).1, Machine.jumping, hf.stack_eq]
      rfl
  | jz target =>
      exact branch_eq_map hc h hf hip .jz (htarget target rfl) fun v => by rw [beq_iff_eq]
  | jnz target =>
      exact branch_eq_map hc h hf hip .jnz (htarget target rfl) fun v => by rw [bne_iff_ne]
  | add => exact combine_eq_map hf hip .add
  | sub => exact combine_eq_map hf hip .sub
  | mul => exact combine_eq_map hf hip .mul
  | div => exact combine_eq_map hf hip .div
  | print =>
      rw [turn, withTop_eq_map hf hip, Machine.effect]
      cases m.stack with
      | nil => rfl
      | cons v rest => rfl
  | stop => rfl

end Turns

/-- A line is found where the machine stands. -/
lemma fetch_of_line (hc : c.Covers m) (h : m.WellFormed) {entry : Entry}
    (hentry : entry ∈ c.lines) (hip : m.ip = entry.offset) :
    m.fetch = .ok (entry.instruction, m.ip + entry.instruction.size) := by
  have hend := hc.add_size_le h hentry
  have hpos : 0 < entry.instruction.size := Opcode.size_pos _
  rw [Machine.fetch_eq, if_neg (by omega), hip, hc.decodeAt_eq entry hentry]

/-- What the next line comes to is what the next instruction comes to. -/
lemma next_eq_map (hc : c.Covers m) (h : m.WellFormed) (hf : Follows c m st) :
    m.nextEffect = c.readTurn (c.next st) := by
  rw [Machine.nextEffect, next]
  cases hline : c.lines[st.line]? with
  | none =>
      have hip : m.ip = c.size := hf.ip_eq.trans (place_of_getElem?_eq_none hline)
      rw [Machine.fetch_eq, if_pos (by rw [hip, hc.size_eq]), hip]
      rfl
  | some entry =>
      have hentry := List.mem_of_getElem? hline
      have hip : m.ip = entry.offset := hf.ip_eq.trans (place_of_getElem? hline)
      rw [fetch_of_line hc h hentry hip]
      dsimp only
      rw [hip, ← hc.place_succ _ _ hline]
      exact turn_eq_map hc h hf hip (hc.target_listed entry hentry)

/-! ### Steps -/

/-- Another status on both sides changes nothing else. -/
lemma Follows.withStatus (hf : Follows c m st) (status : Status) :
    Follows c (m.withStatus status) { st with status := status } :=
  { hf with status_eq := rfl }

/-- The same turn on both sides leads to the same line. -/
lemma Follows.after (hc : c.Covers m) (h : m.WellFormed) (hf : Follows c m st) (t : Turn) :
    Follows c (m.after (c.effectOf t)) (st.after t) where
  ip_eq := rfl
  stack_eq := rfl
  register_eq := by
    intro k hk
    rw [Reference.getElem?_visibleRegisters_after h _ (by rw [← hc.registerCount_eq]; exact hk)]
    have hbefore := hf.register_eq k hk
    obtain ⟨stack, line, deed⟩ := t
    cases deed with
    | nothing => exact hbefore
    | print v => exact hbefore
    | store r v =>
        change (if r.toNat = k then some v else m.visibleRegisters[k]?)
          = some (Function.update st.registers r.toNat v k)
        by_cases hr : r.toNat = k
        · rw [if_pos hr, ← hr, Function.update_self]
        · rw [if_neg hr, Function.update_of_ne (Ne.symm hr), hbefore]
  status_eq := hf.status_eq

variable {σ : Type} [Sink σ]

/-- What a turn does, said of the effect that it is read as. -/
lemma apply_eq (st : State) (s : σ) (t : Turn) :
    c.apply st s (some t) =
      match (c.effectOf t).printed? with
      | none => ⟨.ok .ready, st.after t, s⟩
      | some v =>
        match Sink.print s v with
        | .ok s => ⟨.ok .ready, st.after t, s⟩
        | .error s => st.fail (.outputRefused (c.place st.line)) s := by
  obtain ⟨stack, line, deed⟩ := t
  cases deed with
  | nothing => rfl
  | store r v => rfl
  | print v => rfl

/-- **One step** on both sides: the answers and the sinks are the same, and
the machine stands at the line of the interpreter again. -/
theorem step_follows (hc : c.Covers m) (h : m.WellFormed) (hf : Follows c m st) (s : σ) :
    (m.step s).answer = (c.step st s).answer ∧ (m.step s).sink = (c.step st s).sink ∧
      Follows c (m.step s).machine (c.step st s).state := by
  have hstatus := hf.status_eq
  cases hst : st.status with
  | stopped =>
      rw [hst] at hstatus
      rw [Machine.step_of_not_ready (by simp [hstatus]), step, hst, hstatus]
      exact ⟨rfl, rfl, hf⟩
  | faulted fault =>
      rw [hst] at hstatus
      rw [Machine.step_of_not_ready (by simp [hstatus]), step, hst, hstatus]
      exact ⟨rfl, rfl, hf⟩
  | ready =>
      rw [hst] at hstatus
      have hnext := next_eq_map hc h hf
      rw [Machine.step_of_ready h hstatus, step, hst, hnext]
      dsimp only
      cases c.next st with
      | error fault => exact ⟨rfl, rfl, hf.withStatus _⟩
      | ok turn? =>
          cases turn? with
          | none => exact ⟨rfl, rfl, hf.withStatus _⟩
          | some t =>
              have hafter := hf.after hc h t
              dsimp only [readTurn, Except.map, Option.map]
              rw [apply_eq, Machine.realise]
              cases (c.effectOf t).printed? with
              | none =>
                  dsimp only [Machine.settle, Signal.status]
                  rw [Machine.withStatus_after hstatus]
                  exact ⟨rfl, rfl, hafter⟩
              | some v =>
                  dsimp only
                  cases Sink.print s v with
                  | ok s' =>
                      dsimp only [Machine.settle, Signal.status]
                      rw [Machine.withStatus_after hstatus]
                      exact ⟨rfl, rfl, hafter⟩
                  | error s' =>
                      rw [← hf.ip_eq]
                      exact ⟨rfl, rfl, hf.withStatus _⟩

end Script

/-! ### Faults -/

/-- The faults over where a program has gone, not over what an instruction
needs there. -/
inductive Fault.Astray : Fault → Prop
  /-- There is no instruction. -/
  | undecodable (error : DecodeError) : Astray (.undecodable error)
  /-- There is no place to jump to. -/
  | invalidTarget (offset : ℕ) (target : UInt16) : Astray (.invalidTarget offset target)

namespace Script

variable {c : Script} {st : State} {offset : ℕ}

/-- What a line comes to is not a fault over where the program has gone. -/
def OnTrack (turn? : Except Fault (Option Turn)) : Prop :=
  ∀ fault, turn? = .error fault → ¬ fault.Astray

/-- A turn is no fault. -/
lemma onTrack_ok (turn? : Option Turn) : OnTrack (.ok turn?) := by
  intro fault h
  cases h

/-- A fault of another kind. -/
lemma onTrack_error {fault : Fault} (h : ¬ fault.Astray) : OnTrack (.error fault) := by
  intro fault' h'
  cases h'
  exact h

/-- Without a top there is a fault of another kind. -/
lemma onTrack_withTop {op : Opcode} {turn : Word → List Word → Except Fault (Option Turn)}
    (h : ∀ v rest, OnTrack (turn v rest)) : OnTrack (st.withTop op offset turn) := by
  rw [State.withTop]
  cases st.stack with
  | nil => exact onTrack_error (by rintro ⟨⟩)
  | cons v rest => exact h v rest

/-- Without two words, or without a quotient, there is a fault of another
kind. -/
lemma onTrack_combine (op : Arithmetic) : OnTrack (st.combine op offset) := by
  rw [State.combine]
  rcases st.stack with _ | ⟨upper, _ | ⟨lower, rest⟩⟩
  · exact onTrack_error (by rintro ⟨⟩)
  · exact onTrack_error (by rintro ⟨⟩)
  · dsimp only
    cases op.result? lower upper with
    | none => exact onTrack_error (by rintro ⟨⟩)
    | some v => exact onTrack_ok _

/-- Without room there is a fault of another kind. -/
lemma onTrack_push (v : Word) : OnTrack (c.push st offset v) := by
  rw [push]
  split_ifs with hroom
  · exact onTrack_ok _
  · exact onTrack_error (by rintro ⟨⟩)

/-- Without a register there is a fault of another kind. -/
lemma onTrack_withRegister (r : UInt8) {turn : Except Fault (Option Turn)} (h : OnTrack turn) :
    OnTrack (c.withRegister offset r turn) := by
  rw [withRegister]
  split_ifs with hr
  · exact h
  · exact onTrack_error (by rintro ⟨⟩)

/-- An instruction whose target has a line stays on track. -/
lemma onTrack_turn {i : Instruction}
    (htarget : ∀ target, i.target? = some target → ∃ line, c.lineAt? target.toNat = some line) :
    OnTrack (c.turn st offset i) := by
  -- a line at the target leaves what is done with it
  have hwithLine : ∀ {target : UInt16} {turn : ℕ → Except Fault (Option Turn)},
      i.target? = some target → (∀ line, OnTrack (turn line)) →
        OnTrack (c.withLine offset target turn) := by
    intro target turn hi hturn
    obtain ⟨line, hline⟩ := htarget target hi
    rw [withLine, hline]
    exact hturn line
  cases i with
  | nop => exact onTrack_ok _
  | push v => exact onTrack_push v
  | pop => exact onTrack_withTop fun _ _ => onTrack_ok _
  | load r => exact onTrack_withRegister r (onTrack_push _)
  | store r => exact onTrack_withRegister r (onTrack_withTop fun _ _ => onTrack_ok _)
  | jmp target => exact hwithLine rfl fun _ => onTrack_ok _
  | jz target =>
      refine hwithLine rfl fun line => onTrack_withTop fun v rest => ?_
      split_ifs with hv
      · exact onTrack_ok _
      · exact onTrack_ok _
  | jnz target =>
      refine hwithLine rfl fun line => onTrack_withTop fun v rest => ?_
      split_ifs with hv
      · exact onTrack_ok _
      · exact onTrack_ok _
  | add => exact onTrack_combine .add
  | sub => exact onTrack_combine .sub
  | mul => exact onTrack_combine .mul
  | div => exact onTrack_combine .div
  | print => exact onTrack_withTop fun _ _ => onTrack_ok _
  | stop => exact onTrack_ok _

/-- If a script has gone astray, then behind its last line. -/
def AstrayAtEnd (c : Script) (st : State) : Prop :=
  ∀ fault, st.status = .faulted fault → fault.Astray →
    fault = .undecodable (.pastEnd c.size) ∧ c.place st.line = c.size

/-- **No script goes astray but at its end**, if its jumps have lines to lead
to. -/
lemma AstrayAtEnd.step {m : Machine} {σ : Type} [Sink σ] (hc : c.Covers m)
    (h : c.AstrayAtEnd st) (s : σ) : c.AstrayAtEnd (c.step st s).state := by
  rw [Script.step]
  cases hst : st.status with
  | stopped => exact h
  | faulted fault => exact h
  | ready =>
      dsimp only
      cases hnext : c.next st with
      | error fault =>
          intro fault' hstatus hastray
          cases hstatus
          rw [next] at hnext
          cases hline : c.lines[st.line]? with
          | none =>
              simp only [hline, Except.error.injEq] at hnext
              exact ⟨hnext.symm, place_of_getElem?_eq_none hline⟩
          | some entry =>
              simp only [hline] at hnext
              have htarget := hc.target_listed entry (List.mem_of_getElem? hline)
              exact absurd hastray (onTrack_turn htarget fault hnext)
      | ok turn? =>
          intro fault hstatus hastray
          cases turn? with
          | none => cases hstatus
          | some t =>
              dsimp only at hstatus
              rw [apply_eq] at hstatus
              cases hprinted : (c.effectOf t).printed? with
              | none =>
                  simp only [hprinted, State.after, hst] at hstatus
                  cases hstatus
              | some v =>
                  cases hsink : Sink.print s v with
                  | ok s' =>
                      simp only [hprinted, hsink, State.after, hst] at hstatus
                      cases hstatus
                  | error s' =>
                      simp only [hprinted, hsink] at hstatus
                      cases hstatus
                      cases hastray

end Script

/-! ### Runs -/

/-- A step of a machine executes an instruction. -/
def Machine.Executes {σ : Type} [Sink σ] (m : Machine) (s : σ) (i : Instruction) : Prop :=
  m.step s = Machine.settle ((Machine.execute m.ip i (m.ip + i.size)).run (m, s))

namespace Script

variable {c : Script} {m : Machine} {st : State} {σ : Type} [Sink σ]

/-- A machine that is ready executes the line where it stands. -/
lemma executes_of_line (hc : c.Covers m) (h : m.WellFormed) (hready : m.status = .ready) (s : σ)
    {entry : Entry} (hentry : entry ∈ c.lines) (hip : m.ip = entry.offset) :
    m.Executes s entry.instruction := by
  rw [Machine.Executes, Machine.step_of_fetch hready (fetch_of_line hc h hentry hip)]

/-- A script covers the machine that it covers at the start, however many
steps it has taken. -/
lemma Covers.steps {capacity limits : Limits} {program : Bytes}
    (hload : Machine.load capacity limits program = .ok m) (hc : c.Covers m) (s : σ) (n : ℕ) :
    c.Covers (m.steps s n).machine := by
  have hstorage := (Machine.Life.steps (.load hload) s n).sameStorage
  rw [← (Machine.load_eq_ok_iff.mp hload).2.2] at hstorage
  exact hc.of_sameStorage hstorage

/-- A machine that has just loaded a program stands at the first line. -/
lemma follows_of_load {capacity limits : Limits} {program : Bytes}
    (hload : Machine.load capacity limits program = .ok m) (hc : c.Covers m) :
    Follows c m .start := by
  have hzero := @Machine.visibleRegisters_of_load _ _ _ _ hload
  obtain ⟨-, -, rfl⟩ := Machine.load_eq_ok_iff.mp hload
  refine ⟨hc.place_zero.symm, rfl, fun k hk => ?_, rfl⟩
  rw [hc.registerCount_eq] at hk
  exact hzero hk

/-- **Several steps** on both sides: the answers and the sinks are the same,
the machine stands at the line of the interpreter, and neither has gone astray
but at the end. -/
theorem steps_follow {capacity limits : Limits} {program : Bytes}
    (hload : Machine.load capacity limits program = .ok m) (hc : c.Covers m) (s : σ) (n : ℕ) :
    (m.steps s n).answers = (c.steps s n).answers ∧ (m.steps s n).sink = (c.steps s n).sink ∧
      Follows c (m.steps s n).machine (c.steps s n).state ∧
      c.AstrayAtEnd (c.steps s n).state := by
  induction n with
  | zero => exact ⟨rfl, rfl, follows_of_load hload hc, by rintro fault ⟨⟩⟩
  | succ n ih =>
      obtain ⟨hanswers, hsink, hf, hastray⟩ := ih
      have hw := (Machine.Life.steps (.load hload) s n).wellFormed
      have hcn := hc.steps hload s n
      obtain ⟨hanswer, hsink', hf'⟩ := step_follows hcn hw hf (c.steps s n).sink
      rw [Machine.steps, steps]
      dsimp only
      rw [hsink, hanswers, hanswer]
      exact ⟨rfl, hsink', hf', hastray.step hcn _⟩

end Script

/-- **Prediction**: a jump-closed program is run as an interpreter of its
listing runs it, which counts in lines. Any number of steps from the start
answers the same, leaves the same sink, and leads to the offset of the line of
the interpreter, with its stack, registers and status. That offset is a listed
one or lies behind the program. At a listed offset the listed instruction is
executed, and behind the program, below the limit of the memory, a `NOP`. No
such program meets an unknown opcode or a target outside the memory, and it
misses a byte at the limit of the memory alone. -/
theorem listing_predicts_run {capacity limits : Limits} {program : Bytes} {m : Machine}
    {entries : List Entry} (hload : Machine.load capacity limits program = .ok m)
    (hclosed : JumpClosed limits program entries) {σ : Type} [Sink σ] (s : σ) (n : ℕ) :
    let c := Script.of limits program entries
    let out := m.steps s n
    (out.answers = (c.steps s n).answers ∧ out.sink = (c.steps s n).sink ∧
        Script.Follows c out.machine (c.steps s n).state) ∧
      ((∃ entry ∈ entries, out.machine.ip = entry.offset) ∨
        program.size ≤ out.machine.ip ∧ out.machine.ip ≤ limits.memorySize) ∧
      (out.machine.status = .ready →
        (∀ entry ∈ entries, out.machine.ip = entry.offset →
          out.machine.Executes out.sink entry.instruction) ∧
        (program.size ≤ out.machine.ip → out.machine.ip < limits.memorySize →
          out.machine.Executes out.sink .nop)) ∧
      ∀ fault, .error fault ∈ out.answers → fault.Astray →
        fault = .undecodable (.pastEnd limits.memorySize) ∧
          out.machine.ip = limits.memorySize := by
  intro c out
  have hprogram := (Machine.load_eq_ok_iff.mp hload).2.1
  have hc : c.Covers m := Script.covers_of_load hload hclosed
  have hcn : c.Covers out.machine := hc.steps hload s n
  have hw : out.machine.WellFormed := (Machine.Life.steps (.load hload) s n).wellFormed
  obtain ⟨hanswers, hsink, hf, hastray⟩ := Script.steps_follow hload hc s n
  refine ⟨⟨hanswers, hsink, hf⟩, ?_, fun hready => ⟨?_, ?_⟩, ?_⟩
  · have hip : out.machine.ip = c.place (c.steps s n).state.line := hf.ip_eq
    cases hline : c.lines[(c.steps s n).state.line]? with
    | none =>
        have hend : out.machine.ip = limits.memorySize :=
          hip.trans (Script.place_of_getElem?_eq_none hline)
        exact .inr ⟨by omega, by omega⟩
    | some entry =>
        rw [Script.place_of_getElem? hline] at hip
        rcases (Script.mem_lines_iff hprogram).mp (List.mem_of_getElem? hline) with
          hlisted | ⟨-, hle, hlt⟩
        · exact .inl ⟨entry, hlisted, hip⟩
        · exact .inr ⟨by omega, by omega⟩
  · intro entry hentry hip
    have hline : entry ∈ c.lines := (Script.mem_lines_iff hprogram).mpr (.inl hentry)
    exact Script.executes_of_line hcn hw hready _ hline hip
  · intro hle hlt
    have hnop : (⟨out.machine.ip, .nop⟩ : Entry) ∈ c.lines :=
      (Script.mem_lines_iff hprogram).mpr (.inr ⟨rfl, hle, hlt⟩)
    exact Script.executes_of_line hcn hw hready _ hnop rfl
  · intro fault hmem hfault
    have hstatus : out.machine.status = .faulted fault :=
      Machine.status_of_error_mem_answers hmem
    rw [hf.status_eq] at hstatus
    obtain ⟨heq, hplace⟩ := hastray fault hstatus hfault
    exact ⟨heq, hf.ip_eq.trans hplace⟩

/-- `JMP 4`, `STOP`, `PUSH 0` and `JZ 13`: the `STOP` is passed over, the
second jump leads among the zeros, and these to the limit of the memory. -/
theorem listing_predicts_run_to_limit :
    ∃ m, Machine.load ⟨8, 4, 16⟩ ⟨2, 4, 15⟩ #[5, 4, 0, 13, 1, 0, 0, 0, 0, 6, 13, 0] = .ok m ∧
      JumpClosed ⟨2, 4, 15⟩ #[5, 4, 0, 13, 1, 0, 0, 0, 0, 6, 13, 0]
        [⟨0, .jmp 4⟩, ⟨3, .stop⟩, ⟨4, .push 0⟩, ⟨9, .jz 13⟩] ∧
      (m.steps (Tape.blank 1) 6).answers = [.ok .ready, .ok .ready, .ok .ready, .ok .ready,
        .ok .ready, .error (.undecodable (.pastEnd 15))] ∧
      (m.steps (Tape.blank 1) 6).machine.ip = 15 := by
  have hlimits : Limits.check ⟨2, 4, 15⟩ ⟨8, 4, 16⟩ = .ok () := by decide
  have hload := Machine.load_eq_ok_iff.mpr ⟨Limits.check_eq_ok_iff.mp hlimits,
    show Array.size #[5, 4, 0, 13, 1, 0, 0, 0, 0, 6, 13, 0] ≤ 15 by decide, rfl⟩
  have hclosed : JumpClosed ⟨2, 4, 15⟩ #[5, 4, 0, 13, 1, 0, 0, 0, 0, 6, 13, 0]
      [⟨0, .jmp 4⟩, ⟨3, .stop⟩, ⟨4, .push 0⟩, ⟨9, .jz 13⟩] := by
    have hbytes : Array.toList #[5, 4, 0, 13, 1, 0, 0, 0, 0, 6, 13, 0]
        = [Instruction.jmp 4, .stop, .push 0, .jz 13].flatMap Instruction.encode := by decide
    refine ⟨Listing.entries_eq_layout hbytes, ?_⟩
    intro entry hentry target htarget
    simp only [List.mem_cons, List.not_mem_nil, or_false] at hentry
    rcases hentry with rfl | rfl | rfl | rfl
    · cases htarget
      exact .inl ⟨⟨4, .push 0⟩, by decide, rfl⟩
    · cases htarget
    · cases htarget
    · cases htarget
      exact .inr (by decide)
  obtain ⟨⟨hanswers, -, hf⟩, -⟩ := listing_predicts_run hload hclosed (Tape.blank 1) 6
  exact ⟨_, hload, hclosed, hanswers.trans (by decide +kernel), hf.ip_eq.trans (by decide +kernel)⟩

end Bytecode
