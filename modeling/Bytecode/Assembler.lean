/-
An assembler: a buffer of fixed size and the offset up to which it holds
a program.

Whatever is put behind the program is written first, and then the end of
the program is moved behind it. That fails for an end that is no offset;
what has been written stays then.

* `Assembler.emit` and `Assembler.raw`: an instruction or a byte behind
  the program, if it fits. Every instruction also has an emitter of its
  own (`Assembler.typed`);
* `Assembler.label`: the next offset as the target of a jump;
* `Assembler.jumpForward`: a jump whose target is not known yet, which
  gives a `Patch`; `Assembler.patch` and `Assembler.patchHere` write the
  target later. A patch may be used with any buffer, writes anywhere in
  it, and never moves the end of the program;
* `Instruction.jumpTo?`: the three jumps by their opcodes.
-/
import Bytecode.Instruction

namespace Bytecode

/-- The jump to a target that has an opcode, if it is one of a jump. -/
def Instruction.jumpTo? (op : Opcode) (target : UInt16) : Option Instruction :=
  match op with
  | .jmp => some (.jmp target)
  | .jz => some (.jz target)
  | .jnz => some (.jnz target)
  | _ => none

/-- Why a buffer can not take what it should. -/
inductive AssemblyError where
  /-- It does not fit the buffer. -/
  | bufferTooSmall
  /-- The offset needs more than two bytes. -/
  | targetOutOfRange (offset : Nat)
  /-- The opcode is not one of a jump. -/
  | notAJump (opcode : Opcode)
  deriving DecidableEq

/-- The text of an assembly error. -/
def AssemblyError.message : AssemblyError → String
  | bufferTooSmall => "program buffer is too small"
  | targetOutOfRange offset =>
      "offset " ++ Text.decimal offset ++ " can not be encoded as a jump target"
  | notAJump opcode => opcode.mnemonic ++ " is not a jump instruction"

/-- A jump at an offset that waits for its target. -/
structure Patch where
  opcode : Opcode
  offset : Nat
  deriving DecidableEq

/-- A buffer with a program at its start. -/
structure Assembler where
  buffer : Bytes
  /-- The size of the program, and the offset of what comes next. -/
  free : Nat

namespace Assembler

/-- A buffer without a program. -/
def ofBuffer (buffer : Bytes) : Assembler :=
  ⟨buffer, 0⟩

/-- The offset of the next instruction. -/
def here (a : Assembler) : Nat :=
  a.free

/-- The size of the program. -/
def finish (a : Assembler) : Nat :=
  a.free

/-- The offset of the next instruction as a target. -/
def label (a : Assembler) : Except AssemblyError UInt16 :=
  if a.free < 65536 then .ok (UInt16.ofNat a.free) else .error (.targetOutOfRange a.free)

/-! ### What comes behind the program -/

/-- Writes an instruction at an offset, and answers how many bytes it takes
there, if it fits. -/
def write (a : Assembler) (offset : Nat) (i : Instruction) : Option Nat × Assembler :=
  match a.buffer.changeFrom? offset i.encodeInto with
  | none => (none, a)
  | some (written, buffer) => (written, { a with buffer })

/-- Moves the end of the program over bytes that have been written behind
it, and answers where they are. -/
def advance (a : Assembler) (size : Nat) : Except AssemblyError Nat × Assembler :=
  match addOffset? a.free size with
  | none => (.error .bufferTooSmall, a)
  | some free => (.ok a.free, { a with free })

/-- Puts an instruction behind the program, and answers its offset. -/
def emit (a : Assembler) (i : Instruction) : Except AssemblyError Nat × Assembler :=
  match a.write a.free i with
  | (none, a) => (.error .bufferTooSmall, a)
  | (some size, a) => a.advance size

/-- Puts a byte behind the program, and answers its offset. -/
def raw (a : Assembler) (byte : UInt8) : Except AssemblyError Nat × Assembler :=
  if a.free < a.buffer.size then
    advance { a with buffer := a.buffer.setIfInBounds a.free byte } 1
  else
    (.error .bufferTooSmall, a)

/-! ### An emitter for each instruction -/

section Emitters

variable (a : Assembler)

def nop := a.emit .nop

def push (value : Word) := a.emit (.push value)

def pop := a.emit .pop

def load (register : UInt8) := a.emit (.load register)

def store (register : UInt8) := a.emit (.store register)

def jmp (target : UInt16) := a.emit (.jmp target)

def jz (target : UInt16) := a.emit (.jz target)

def jnz (target : UInt16) := a.emit (.jnz target)

def add := a.emit .add

def sub := a.emit .sub

def mul := a.emit .mul

def div := a.emit .div

def print := a.emit .print

def stop := a.emit .stop

/-- Calls the emitter of its own that an instruction has. -/
def typed : Instruction → Except AssemblyError Nat × Assembler
  | .nop => a.nop
  | .push value => a.push value
  | .pop => a.pop
  | .load register => a.load register
  | .store register => a.store register
  | .jmp target => a.jmp target
  | .jz target => a.jz target
  | .jnz target => a.jnz target
  | .add => a.add
  | .sub => a.sub
  | .mul => a.mul
  | .div => a.div
  | .print => a.print
  | .stop => a.stop

/-- The emitter of its own does what the common one does. -/
@[simp] theorem typed_eq_emit (i : Instruction) : a.typed i = a.emit i := by
  cases i <;> rfl

end Emitters

/-! ### Jumps whose targets are given later -/

/-- Puts a jump behind the program whose target is given later. -/
def jumpForward (a : Assembler) (op : Opcode) : Except AssemblyError Patch × Assembler :=
  match Instruction.jumpTo? op 0 with
  | none => (.error (.notAJump op), a)
  | some i =>
    match a.emit i with
    | (.ok offset, a) => (.ok ⟨op, offset⟩, a)
    | (.error e, a) => (.error e, a)

/-- Writes the target of a jump. -/
def patch (a : Assembler) (p : Patch) (target : UInt16) :
    Except AssemblyError Unit × Assembler :=
  match Instruction.jumpTo? p.opcode target with
  | none => (.error (.notAJump p.opcode), a)
  | some i =>
    match a.write p.offset i with
    | (none, a) => (.error .bufferTooSmall, a)
    | (some _, a) => (.ok (), a)

/-- Makes the next instruction the target of a jump. -/
def patchHere (a : Assembler) (p : Patch) : Except AssemblyError Unit × Assembler :=
  match a.label with
  | .ok target => a.patch p target
  | .error e => (.error e, a)

end Assembler

end Bytecode
