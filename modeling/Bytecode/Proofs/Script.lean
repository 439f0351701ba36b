/-
Scripts: programs as numbered lines, and an interpreter that knows nothing of
bytes.

The interpreter counts in lines. An instruction goes on with the next line, a
jump with the line whose offset is its target; offsets are otherwise only there
to be named in faults.

* `Script.of`: the script of a program that is listed without an error. The
  lines behind the listing are the `NOP`s up to the limit of the memory;
* `Script.turn`: what the instruction of a line comes to;
* `Script.step` and `Script.steps`: one step, and several.
-/
import Mathlib
import Bytecode.Listing.Lemmas
import Bytecode.Proofs.Effect
import Bytecode.Proofs.Reference

namespace Bytecode

/-- The lines of a program, and what it runs under. -/
structure Script where
  lines : List Entry
  /-- The offset behind the last line. -/
  size : ℕ
  stackSize : ℕ
  registerCount : ℕ

namespace Script

/-- The script of a listed program. -/
def of (limits : Limits) (program : Bytes) (entries : List Entry) : Script where
  lines := entries
    ++ Entry.layout program.size (List.replicate (limits.memorySize - program.size) .nop)
  size := limits.memorySize
  stackSize := limits.stackSize
  registerCount := limits.registerCount

/-- Where an interpreter stands. -/
structure State where
  /-- The number of the next line. -/
  line : ℕ
  /-- The stack, its top first. -/
  stack : List Word
  registers : ℕ → Word
  status : Status

/-- The start of a script. -/
def State.start : State where
  line := 0
  stack := []
  registers := fun _ => 0
  status := .ready

/-- What an instruction leaves that neither faults nor ends the program. -/
structure Turn where
  stack : List Word
  line : ℕ
  deed : Deed := .nothing

variable (c : Script)

/-- The offset of a line. -/
def place (line : ℕ) : ℕ :=
  (c.lines[line]?.map (·.offset)).getD c.size

/-- The line at an offset. -/
def lineAt? (offset : ℕ) : Option ℕ :=
  c.lines.findIdx? (·.offset = offset)

/-! ### Instructions -/

/-- The turn to the next line. -/
def State.onward (st : State) (stack : List Word) (deed : Deed := .nothing) :
    Except Fault (Option Turn) :=
  .ok (some ⟨stack, st.line + 1, deed⟩)

/-- The top of the stack is used, if there is one. -/
def State.withTop (st : State) (op : Opcode) (offset : ℕ)
    (turn : Word → List Word → Except Fault (Option Turn)) : Except Fault (Option Turn) :=
  match st.stack with
  | [] => .error (.stackUnderflow op offset 1 0)
  | v :: rest => turn v rest

/-- The two topmost words are replaced by the result of an operation. -/
def State.combine (st : State) (op : Arithmetic) (offset : ℕ) : Except Fault (Option Turn) :=
  match st.stack with
  | upper :: lower :: rest =>
    match op.result? lower upper with
    | some v => st.onward (v :: rest)
    | none => .error (.divisionByZero offset)
  | stack => .error (.stackUnderflow op.opcode offset 2 stack.length)

/-- A word is put on the stack, if there is room. -/
def push (st : State) (offset : ℕ) (v : Word) : Except Fault (Option Turn) :=
  if st.stack.length < c.stackSize then st.onward (v :: st.stack)
  else .error (.stackOverflow offset v)

/-- A register is used, if there is one of this index. -/
def withRegister (offset : ℕ) (r : UInt8) (turn : Except Fault (Option Turn)) :
    Except Fault (Option Turn) :=
  if r.toNat < c.registerCount then turn else .error (.invalidRegister offset r)

/-- A target is used, if there is a line at it. -/
def withLine (offset : ℕ) (target : UInt16) (turn : ℕ → Except Fault (Option Turn)) :
    Except Fault (Option Turn) :=
  match c.lineAt? target.toNat with
  | some line => turn line
  | none => .error (.invalidTarget offset target)

/-- What an instruction at an offset comes to, nothing if it ends the
program. -/
def turn (st : State) (offset : ℕ) : Instruction → Except Fault (Option Turn)
  | .nop => st.onward st.stack
  | .push v => c.push st offset v
  | .pop => st.withTop .pop offset fun _ rest => st.onward rest
  | .load r => c.withRegister offset r (c.push st offset (st.registers r.toNat))
  | .store r => c.withRegister offset r
      (st.withTop .store offset fun v rest => st.onward rest (.store r v))
  | .jmp target => c.withLine offset target fun line => .ok (some ⟨st.stack, line, .nothing⟩)
  | .jz target => c.withLine offset target fun line => st.withTop .jz offset fun v _ =>
      if v = 0 then .ok (some ⟨st.stack, line, .nothing⟩) else st.onward st.stack
  | .jnz target => c.withLine offset target fun line => st.withTop .jnz offset fun v _ =>
      if v ≠ 0 then .ok (some ⟨st.stack, line, .nothing⟩) else st.onward st.stack
  | .add => st.combine .add offset
  | .sub => st.combine .sub offset
  | .mul => st.combine .mul offset
  | .div => st.combine .div offset
  | .print => st.withTop .print offset fun v rest => st.onward rest (.print v)
  | .stop => .ok none

/-- What the next line comes to. Behind the last line there is none. -/
def next (st : State) : Except Fault (Option Turn) :=
  match c.lines[st.line]? with
  | none => .error (.undecodable (.pastEnd c.size))
  | some entry => c.turn st entry.offset entry.instruction

/-! ### Steps -/

/-- The state after a turn. -/
def State.after (st : State) (t : Turn) : State :=
  { st with
    line := t.line
    stack := t.stack
    registers :=
      match t.deed with
      | .store r v => Function.update st.registers r.toNat v
      | _ => st.registers }

open Reference (Answer Answers)

variable {σ : Type} [Sink σ]

/-- A fault changes the status and nothing else. -/
def State.fail (st : State) (fault : Fault) (s : σ) : Answer State σ :=
  ⟨.error fault, { st with status := .faulted fault }, s⟩

/-- What a turn does. A word that is printed is offered to the sink first. -/
def apply (st : State) (s : σ) : Option Turn → Answer State σ
  | none => ⟨.ok .stopped, { st with status := .stopped }, s⟩
  | some t =>
    match t.deed with
    | .print v =>
      match Sink.print s v with
      | .ok s => ⟨.ok .ready, st.after t, s⟩
      | .error s => st.fail (.outputRefused (c.place st.line)) s
    | _ => ⟨.ok .ready, st.after t, s⟩

/-- One step. A program that has stopped or faulted answers the same again. -/
def step (st : State) (s : σ) : Answer State σ :=
  match st.status with
  | .stopped => ⟨.ok .stopped, st, s⟩
  | .faulted fault => ⟨.error fault, st, s⟩
  | .ready =>
    match c.next st with
    | .error fault => st.fail fault s
    | .ok turn => c.apply st s turn

/-- Several steps from the start. -/
def steps (s : σ) : ℕ → Answers State σ
  | 0 => ⟨[], .start, s⟩
  | n + 1 =>
    let before := steps s n
    let out := c.step before.state before.sink
    ⟨before.answers ++ [out.answer], out.state, out.sink⟩

end Script

end Bytecode
