/-
What the next instruction of a machine does.

An instruction is fetched, then executed. Executing it changes the
machine in place, one piece of storage after the other, and where it
fails the machine stays as it is at that point. The operand of an
instruction is checked before the stack is looked at.

* `Machine.fetch`: the instruction at the instruction pointer, and where
  it ends;
* `Machine.slot`, `Machine.destination`, `Machine.peek`: checks that
  only look at the machine;
* `Machine.push`, `Machine.pop`, `Machine.combine`, `Machine.write`: the
  changes of the stack and the registers. Each checks for itself what it
  needs;
* `Machine.execute`: an instruction that has been fetched.
-/
import Bytecode.Decoder
import Bytecode.Machine.Basic
import Bytecode.Sink

namespace Bytecode

/-- The operations on two words. -/
inductive Arithmetic where
  | add
  | sub
  | mul
  | div
  deriving DecidableEq

namespace Arithmetic

/-- The opcode of an operation. -/
def opcode : Arithmetic → Opcode
  | add => .add
  | sub => .sub
  | mul => .mul
  | div => .div

/-- The result of an operation on the lower and the upper word, modulo
`2 ^ 32`. A quotient is rounded toward zero, and by zero there is none. -/
def result? (op : Arithmetic) (lower upper : Word) : Option Word :=
  match op with
  | add => some (lower + upper)
  | sub => some (lower - upper)
  | mul => some (lower * upper)
  | div => if upper = 0 then none else some (lower / upper)

end Arithmetic

/-- What a step without a fault answers. -/
inductive Signal where
  /-- The machine can take another step. -/
  | ready
  /-- The program has ended. -/
  | stopped
  deriving DecidableEq

/-- What is done to a machine and its sink in place. If it fails, they
stay as they are at that point. -/
abbrev Action (σ : Type) := EStateM Fault (Machine × σ)

namespace Machine

variable {σ : Type}

/-- The instruction at the instruction pointer, and the offset behind
it. -/
def fetch (m : Machine) : Except Fault (Instruction × Nat) :=
  if m.limits.memorySize ≤ m.ip then
    .error (.undecodable (.pastEnd m.ip))
  else
    match (Decoder.mk m.code m.ip).decode with
    | (.ok i, d) => .ok (i, d.position)
    | (.error e, _) => .error (.undecodable e)

/-! ### Checks -/

/-- The fault of an operation that needs more words than there are. -/
def underflow (m : Machine) (op : Opcode) (offset needed : Nat) : Fault :=
  .stackUnderflow op offset needed m.depth

/-- The place of a register in the storage. -/
def slot (m : Machine) (offset : Nat) (r : UInt8) : Except Fault Nat :=
  if m.limits.registerCount ≤ r.toNat then .error (.invalidRegister offset r)
  else .ok r.toNat

/-- The value of a register. -/
def read (m : Machine) (offset : Nat) (r : UInt8) : Except Fault Word := do
  let slot ← m.slot offset r
  match m.registers[slot]? with
  | some v => return v
  | none => throw (.invalidRegister offset r)

/-- The offset that a jump leads to. -/
def destination (m : Machine) (offset : Nat) (target : UInt16) : Except Fault Nat :=
  if m.limits.memorySize ≤ target.toNat then .error (.invalidTarget offset target)
  else .ok target.toNat

/-- The top of the stack, which stays there. -/
def peek (m : Machine) (op : Opcode) (offset : Nat) : Except Fault Word :=
  match m.top? with
  | some v => .ok v
  | none => .error (m.underflow op offset 1)

/-- Where a jump goes that depends on the top of the stack: to its target
if the top passes the test, else to the next instruction. -/
def branch (m : Machine) (op : Opcode) (offset : Nat) (target : UInt16)
    (test : Word → Bool) (next : Nat) : Except Fault Nat := do
  let destination ← m.destination offset target
  let top ← m.peek op offset
  return if test top then destination else next

/-! ### Storage -/

/-- The machine with a word put into the storage of the stack. -/
def pushed? (m : Machine) (v : Word) : Option Machine :=
  if m.depth < m.stackCapacity then some { m with stack := v :: m.stack } else none

/-- The top of the stack, and the machine without it. -/
def popped? (m : Machine) : Option (Word × Machine) :=
  match m.stack with
  | [] => none
  | v :: rest => some (v, { m with stack := rest })

/-- The machine with another word on top of its stack. -/
def topReplaced? (m : Machine) (v : Word) : Option Machine :=
  match m.stack with
  | [] => none
  | _ :: rest => some { m with stack := v :: rest }

/-- The machine with another word in the storage of the registers. -/
def stored? (m : Machine) (slot : Nat) (v : Word) : Option Machine :=
  if slot < m.registers.size then
    some { m with registers := m.registers.setIfInBounds slot v }
  else none

/-! ### Changes in place -/

/-- Looks at the machine. -/
def look {α : Type} (f : Machine → Except Fault α) : Action σ α := do
  let (m, _) ← get
  match f m with
  | .ok a => return a
  | .error fault => throw fault

/-- Changes the machine, or fails without changing it. -/
def change (f : Machine → Option Machine) (fault : Fault) : Action σ Unit := do
  let (m, s) ← get
  match f m with
  | some m => set (m, s)
  | none => throw fault

/-- Puts a word on the stack. -/
def push (offset : Nat) (v : Word) : Action σ Unit := do
  let (m, _) ← get
  if m.limits.stackSize ≤ m.depth then
    throw (.stackOverflow offset v)
  change (·.pushed? v) (.stackOverflow offset v)

/-- Drops the top of the stack, and answers it. -/
def pop (op : Opcode) (offset : Nat) : Action σ Word := do
  let (m, s) ← get
  match m.popped? with
  | some (v, m) =>
    set (m, s)
    return v
  | none => throw (m.underflow op offset 1)

/-- Replaces the two topmost words by the result of an operation on them:
drops the top, then overwrites the word that has become the top. -/
def combine (op : Arithmetic) (offset : Nat) : Action σ Unit := do
  let (m, _) ← get
  match m.stack with
  | upper :: lower :: _ =>
    match op.result? lower upper with
    | none => throw (.divisionByZero offset)
    | some v =>
      change (fun m => m.popped?.map (·.2)) (m.underflow op.opcode offset 2)
      let (m, _) ← get
      change (·.topReplaced? v) (m.underflow op.opcode offset 2)
  | _ => throw (m.underflow op.opcode offset 2)

/-- Puts a word into a register. -/
def write (offset : Nat) (r : UInt8) (v : Word) : Action σ Unit := do
  let slot ← look (·.slot offset r)
  change (·.stored? slot v) (.invalidRegister offset r)

/-- Offers a word to the sink. -/
def offer [Sink σ] (offset : Nat) (v : Word) : Action σ Unit := do
  let (m, s) ← get
  match Sink.print s v with
  | .ok s => set (m, s)
  | .error s =>
    set (m, s)
    throw (.outputRefused offset)

/-- Goes on at an offset. -/
def resume (offset : Nat) : Action σ Signal := do
  modify fun (m, s) => ({ m with ip := offset }, s)
  return .ready

/-! ### Execution -/

/-- Executes the instruction that was fetched at an offset, with another
one behind it. -/
def execute [Sink σ] (offset : Nat) (i : Instruction) (next : Nat) : Action σ Signal :=
  match i with
  | .nop => resume next
  | .push v => do
      push offset v
      resume next
  | .pop => do
      let _ ← pop .pop offset
      resume next
  | .load r => do
      let v ← look (·.read offset r)
      push offset v
      resume next
  | .store r => do
      let _ ← look (·.slot offset r)
      let v ← pop .store offset
      write offset r v
      resume next
  | .jmp target => do
      let destination ← look (·.destination offset target)
      resume destination
  | .jz target => do
      let destination ← look (·.branch .jz offset target (· == 0) next)
      resume destination
  | .jnz target => do
      let destination ← look (·.branch .jnz offset target (· != 0) next)
      resume destination
  | .add => do
      combine .add offset
      resume next
  | .sub => do
      combine .sub offset
      resume next
  | .mul => do
      combine .mul offset
      resume next
  | .div => do
      combine .div offset
      resume next
  | .print => do
      let v ← look (·.peek .print offset)
      offer offset v
      let _ ← pop .print offset
      resume next
  | .stop => return .stopped

end Machine

end Bytecode
