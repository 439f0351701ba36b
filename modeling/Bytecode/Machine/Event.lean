/-
What is worth noting while a machine loads and runs a program.

* `Event`: the program is loaded, the run starts, an instruction is
  about to be executed, the run has stopped, a fault;
* `Event.text`: an event in words.
-/
import Bytecode.Machine.Basic

namespace Bytecode

/-- What happens to a machine. -/
inductive Event where
  /-- A program of so many bytes has been loaded under these limits. -/
  | loaded (size : Nat) (limits : Limits)
  /-- A run starts. -/
  | started
  /-- The instruction at the offset is about to be executed, with so many
  words on the stack. -/
  | executing (offset : Nat) (instruction : Instruction) (depth : Nat)
  /-- The run has ended at the offset. -/
  | stopped (offset : Nat)
  /-- An instruction could not be executed. -/
  | faulted (fault : Fault)
  deriving DecidableEq

/-- The text of an event. -/
def Event.text : Event → String
  | loaded size limits =>
      "loaded " ++ Text.decimal size ++ " byte program (stack " ++
        Text.decimal limits.stackSize ++ ", registers " ++ Text.decimal limits.registerCount ++
        ", buffer " ++ Text.decimal limits.memorySize ++ ")"
  | started => "run: start"
  | executing offset i depth =>
      Text.paddedDecimal 5 offset ++ ": " ++ i.text ++ " (sp " ++ Text.decimal depth ++ ")"
  | stopped offset => "run: stopped at offset " ++ Text.decimal offset
  | faulted fault => "fault: " ++ fault.message

/-- The event of a machine that has loaded its program. -/
def Machine.loadEvent (m : Machine) : Event :=
  .loaded m.programSize m.limits

end Bytecode
