/-
A reference interpreter: the table of operations on mathematical data.

Its memory is a list of bytes, its stack a list of integers, its registers
a function and its instruction pointer a natural number. It knows opcodes
and operand widths by their numbers, and computes with exact integers that
it wraps afterwards.

* `wrap`: the integer of 32 bits that an integer is congruent to;
* `Environment` and `State`: what a program runs under, and where it stands;
* `Environment.fetch`: the opcode at the instruction pointer, its operand and
  the offset behind it;
* `Environment.operate`: the rows of the table, with the order of their checks;
* `Environment.step` and `Environment.steps`: one step, and several.
-/
import Mathlib
import Bytecode.Machine.Run

namespace Bytecode.Reference

/-- The integer from `-2 ^ 31` to `2 ^ 31 - 1` that an integer is congruent
to modulo `2 ^ 32`. -/
def wrap (n : ℤ) : ℤ :=
  n.bmod (2 ^ 32)

/-- **Wrapping**: there is exactly one integer of 32 bits in every class
modulo `2 ^ 32`. -/
lemma wrap_eq_iff {n k : ℤ} :
    wrap n = k ↔ -2 ^ 31 ≤ k ∧ k < 2 ^ 31 ∧ k ≡ n [ZMOD 2 ^ 32] := by
  rw [wrap]
  constructor
  · rintro rfl
    refine ⟨?_, ?_, Int.bmod_emod⟩
    · have := Int.le_bmod (x := n) (m := 2 ^ 32) (by norm_num)
      omega
    · have := Int.bmod_lt (x := n) (m := 2 ^ 32) (by norm_num)
      omega
  · rintro ⟨hlow, hhigh, hmod⟩
    have hk : k.bmod (2 ^ 32) = k := Int.bmod_eq_of_le (by omega) (by omega)
    have hclass : n % ((2 ^ 32 : ℕ) : ℤ) = k % ((2 ^ 32 : ℕ) : ℤ) := hmod.symm
    calc n.bmod (2 ^ 32) = (n % ((2 ^ 32 : ℕ) : ℤ)).bmod (2 ^ 32) := (Int.emod_bmod _ _).symm
      _ = (k % ((2 ^ 32 : ℕ) : ℤ)).bmod (2 ^ 32) := by rw [hclass]
      _ = k.bmod (2 ^ 32) := Int.emod_bmod _ _
      _ = k := hk

/-- The one quotient of words that is no word. -/
example : wrap ((-2 ^ 31 : ℤ).tdiv (-1)) = -2 ^ 31 := by decide

/-- What a program runs under. -/
structure Environment where
  /-- The program, and zeros up to the limit. -/
  memory : List UInt8
  stackSize : ℕ
  registerCount : ℕ

/-- Where a program stands. -/
structure State where
  ip : ℕ
  /-- The stack, its top first. -/
  stack : List ℤ
  registers : ℕ → ℤ
  /-- What has been printed, in order. -/
  printed : List ℤ
  status : Status

/-- What an operation comes to. -/
inductive Rule where
  /-- The program goes on at an offset. -/
  | go (stack : List ℤ) (ip : ℕ)
  /-- A register is set, and the program goes on. -/
  | store (r : ℕ) (v : ℤ) (stack : List ℤ) (ip : ℕ)
  /-- A value is printed, and the program goes on. -/
  | print (v : ℤ) (stack : List ℤ) (ip : ℕ)
  /-- The program ends. -/
  | stop

/-- The environment of a program under limits. -/
def Environment.of (limits : Limits) (program : Bytes) : Environment where
  memory := program.toList ++ List.replicate (limits.memorySize - program.size) 0
  stackSize := limits.stackSize
  registerCount := limits.registerCount

/-- The state of a program that has not begun. -/
def State.start : State where
  ip := 0
  stack := []
  registers := fun _ => 0
  printed := []
  status := .ready

/-- The number of operand bytes behind an opcode byte, none if the byte is
no opcode. -/
def width : ℕ → Option ℕ
  | 0 | 2 | 8 | 9 | 10 | 11 | 12 | 13 => some 0
  | 3 | 4 => some 1
  | 5 | 6 | 7 => some 2
  | 1 => some 4
  | _ => none

namespace Environment

variable (c : Environment)

/-- The number that the `w` bytes from `p` on stand for, least significant
first. -/
def immediate (p w : ℕ) : ℕ :=
  Nat.ofDigits 256 (((c.memory.drop p).take w).map UInt8.toNat)

/-- The opcode at an offset, its operand and the offset behind it. First
the opcode byte has to be there, then to be an opcode, then the operand
has to be there. -/
def fetch (ip : ℕ) : Except Fault (ℕ × ℕ × ℕ) :=
  match c.memory[ip]? with
  | none => .error (.undecodable (.pastEnd ip))
  | some byte =>
    match width byte.toNat with
    | none => .error (.undecodable (.unknownOpcode ip byte))
    | some w =>
      if ip + 1 + w ≤ c.memory.length then
        .ok (byte.toNat, c.immediate (ip + 1) w, ip + 1 + w)
      else .error (.undecodable (.pastEnd c.memory.length))

/-- A value is put on the stack, unless the stack is full. -/
def push (st : State) (v : ℤ) (next : ℕ) : Except Fault Rule :=
  if st.stack.length < c.stackSize then .ok (.go (v :: st.stack) next)
  else .error (.stackOverflow st.ip (Int32.ofInt v))

/-- The second value and the top are replaced by the result of an
operation, if there are two and the operation does not fail. -/
def binary (st : State) (op : Opcode) (f : ℤ → ℤ → Except Fault ℤ) (next : ℕ) :
    Except Fault Rule :=
  match st.stack with
  | top :: second :: rest => (f second top).map fun v => .go (v :: rest) next
  | stack => .error (.stackUnderflow op st.ip 2 stack.length)

/-- A register is looked up, if there is one of this index. -/
def withRegister (st : State) (r : ℕ) (rule : Except Fault Rule) : Except Fault Rule :=
  if r < c.registerCount then rule else .error (.invalidRegister st.ip (UInt8.ofNat r))

/-- A jump is made, if its target lies in the memory. -/
def withTarget (st : State) (target : ℕ) (rule : Except Fault Rule) : Except Fault Rule :=
  if target < c.memory.length then rule
  else .error (.invalidTarget st.ip (UInt16.ofNat target))

/-- The top of the stack is used, if there is one. -/
def withTop (st : State) (op : Opcode) (rule : ℤ → List ℤ → Rule) : Except Fault Rule :=
  match st.stack with
  | [] => .error (.stackUnderflow op st.ip 1 0)
  | top :: rest => .ok (rule top rest)

/-- The table of operations: what an opcode with an operand does in a
state, with another operation behind it. -/
def operate (st : State) (opcode n next : ℕ) : Except Fault Rule :=
  match opcode with
  -- NOP, PUSH, POP
  | 0 => .ok (.go st.stack next)
  | 1 => c.push st (wrap n) next
  | 2 => withTop st .pop fun _ rest => .go rest next
  -- LOAD, STORE: the register comes before the stack
  | 3 => c.withRegister st n (c.push st (st.registers n) next)
  | 4 => c.withRegister st n (withTop st .store fun top rest => .store n top rest next)
  -- JMP, JZ, JNZ: the target comes before the stack, whether or not it is taken
  | 5 => c.withTarget st n (.ok (.go st.stack n))
  | 6 => c.withTarget st n (withTop st .jz fun top _ =>
      .go st.stack (if top = 0 then n else next))
  | 7 => c.withTarget st n (withTop st .jnz fun top _ =>
      .go st.stack (if top ≠ 0 then n else next))
  -- ADD, SUB, MUL, DIV: the stack comes before the divisor
  | 8 => binary st .add (fun second top => .ok (wrap (second + top))) next
  | 9 => binary st .sub (fun second top => .ok (wrap (second - top))) next
  | 10 => binary st .mul (fun second top => .ok (wrap (second * top))) next
  | 11 => binary st .div (fun second top =>
      if top = 0 then .error (.divisionByZero st.ip) else .ok (wrap (second.tdiv top))) next
  -- PRINT, STOP
  | 12 => withTop st .print fun top rest => .print top rest next
  | 13 => .ok .stop
  | _ => .error (.undecodable (.unknownOpcode st.ip (UInt8.ofNat opcode)))

end Environment

/-- The answer of a step of an interpreter, with its state and the sink
after it. -/
structure Answer (S σ : Type) where
  answer : Except Fault Signal
  state : S
  sink : σ

/-- The answers of several steps in order, with the state and the sink
after them. -/
structure Answers (S σ : Type) where
  answers : List (Except Fault Signal)
  state : S
  sink : σ

variable {σ : Type} [Sink σ]

/-- A fault changes the status and nothing else. -/
def State.fail (st : State) (fault : Fault) (s : σ) : Answer State σ :=
  ⟨.error fault, { st with status := .faulted fault }, s⟩

/-- What a rule does to a state. The stack is checked before the sink is
asked to print. -/
def State.apply (st : State) (s : σ) : Rule → Answer State σ
  | .go stack ip => ⟨.ok .ready, { st with stack, ip }, s⟩
  | .store r v stack ip =>
    ⟨.ok .ready, { st with stack, ip, registers := Function.update st.registers r v }, s⟩
  | .print v stack ip =>
    match Sink.print s (Int32.ofInt v) with
    | .ok s => ⟨.ok .ready, { st with stack, ip, printed := st.printed ++ [v] }, s⟩
    | .error s => st.fail (.outputRefused st.ip) s
  | .stop => ⟨.ok .stopped, { st with status := .stopped }, s⟩

namespace Environment

variable (c : Environment)

/-- The rule of the next operation. -/
def next (st : State) : Except Fault Rule :=
  match c.fetch st.ip with
  | .error fault => .error fault
  | .ok (opcode, n, next) => c.operate st opcode n next

/-- One step. A program that has stopped or faulted answers the same
again. -/
def step (st : State) (s : σ) : Answer State σ :=
  match st.status with
  | .stopped => ⟨.ok .stopped, st, s⟩
  | .faulted fault => ⟨.error fault, st, s⟩
  | .ready =>
    match c.next st with
    | .error fault => st.fail fault s
    | .ok rule => st.apply s rule

/-- Several steps from the start. -/
def steps (s : σ) : ℕ → Answers State σ
  | 0 => ⟨[], .start, s⟩
  | n + 1 =>
    let before := steps s n
    let out := c.step before.state before.sink
    ⟨before.answers ++ [out.answer], out.state, out.sink⟩

end Environment

end Bytecode.Reference
