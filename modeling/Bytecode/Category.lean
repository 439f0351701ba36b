/-
A coarse classification of everything that can go wrong with a program,
from its loading to its output.
-/

namespace Bytecode

/-- What kind of thing went wrong. -/
inductive Category where
  /-- The stack is full. -/
  | resourceExhausted
  /-- The stack holds too few words. -/
  | resourceUnderflow
  /-- There is no such register. -/
  | invalidRegister
  /-- An instruction lies outside the memory. -/
  | invalidAddress
  /-- A byte is no opcode. -/
  | invalidOpcode
  /-- A program does not fit the memory. -/
  | programLoadFailure
  /-- An operation has no result. -/
  | arithmeticFault
  /-- A value was not accepted for output. -/
  | outputFailure
  /-- A limit is out of its range. -/
  | configuration
  deriving DecidableEq

end Bytecode
