/-
The machine: a memory that holds the program, a stack and registers, and
the offset of the next instruction.

The storage of all three is as large as the capacities that the machine
is built with; what a program may use of it is set by the limits it is
loaded under. The memory is zero past the program.

* `Machine.load`: a machine with a program at the start of its memory.
  The limits are checked before the size of the program;
* `Machine.boot`: the same with the capacities as limits;
* `Machine.code`: the memory as far as the limit goes;
* `Machine.visibleRegisters`: the registers that the limit leaves.
-/
import Bytecode.Fault
import Bytecode.Limits

namespace Bytecode

/-- Whether a machine can take a step. -/
inductive Status where
  /-- The next step executes the next instruction. -/
  | ready
  /-- The program has ended. -/
  | stopped
  /-- An instruction could not be executed. -/
  | faulted (fault : Fault)
  deriving DecidableEq

/-- A machine with its program. -/
structure Machine where
  limits : Limits
  /-- The program, and zeros behind it. -/
  memory : Bytes
  programSize : Nat
  /-- The stack, its top first. -/
  stack : List Word
  /-- The number of words that the storage of the stack has room for. -/
  stackCapacity : Nat
  registers : Array Word
  /-- The offset of the next instruction. -/
  ip : Nat
  status : Status

/-- The first `n` elements of an array, if it has that many. -/
def front? {α : Type} (a : Array α) (n : Nat) : Option (Array α) :=
  if n ≤ a.size then some (a.extract 0 n) else none

namespace Machine

/-- A machine with storage of the given capacities, its registers zero
and its stack empty, and a program at the start of its memory. -/
def load (capacity limits : Limits) (program : Bytes) : Except LoadError Machine :=
  match limits.check capacity with
  | .error e => .error e
  | .ok () =>
    let tooLarge := LoadError.programTooLarge program.size limits.memorySize
    if limits.memorySize < program.size then
      .error tooLarge
    else
      let zeros : Bytes := Array.replicate capacity.memorySize 0
      match zeros.overwrite? 0 program.toList with
      | none => .error tooLarge
      | some memory =>
        .ok {
          limits
          memory
          programSize := program.size
          stack := []
          stackCapacity := capacity.stackSize
          registers := Array.replicate capacity.registerCount 0
          ip := 0
          status := .ready }

/-- A machine that is limited by its storage alone. -/
def boot (capacity : Limits) (program : Bytes) : Except LoadError Machine :=
  load capacity capacity program

/-- The bytes that were loaded, or none if the memory is shorter. -/
def program (m : Machine) : Bytes :=
  (front? m.memory m.programSize).getD #[]

/-- The memory as far as the limit goes, or all of it if it is shorter. -/
def code (m : Machine) : Code :=
  .upTo m.memory m.limits.memorySize

/-- The number of words on the stack. -/
def depth (m : Machine) : Nat :=
  m.stack.length

/-- The top of the stack. -/
def top? (m : Machine) : Option Word :=
  m.stack.head?

/-- The registers that the limit leaves, or all of them if there are
fewer. -/
def visibleRegisters (m : Machine) : Array Word :=
  (front? m.registers m.limits.registerCount).getD m.registers

/-- A register below the limit. -/
def register? (m : Machine) (r : UInt8) : Option Word :=
  m.visibleRegisters[r.toNat]?

end Machine

end Bytecode
