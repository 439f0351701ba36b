/-
Sinks: where the values go that a program prints.

* `Sink`: a type whose values accept or refuse a printed word;
* `Tape`: a list of bounded length. It accepts words until it is full,
  and refusing a word leaves it as it is.
-/
import Bytecode.Instruction

namespace Bytecode

/-- A destination of printed words. -/
class Sink (σ : Type) where
  /-- Prints a word: `ok` with the sink after it, or `error` with the
  sink that has refused it. -/
  print : σ → Word → Except σ σ

/-- The words printed so far, in order, with room for only so many. -/
structure Tape where
  capacity : Nat
  words : Array Word

namespace Tape

/-- A tape without any words. -/
def blank (capacity : Nat) : Tape :=
  ⟨capacity, #[]⟩

/-- The tape without its words. -/
def erase (t : Tape) : Tape :=
  blank t.capacity

/-- Puts a word behind the others, if there is room. -/
def print (t : Tape) (v : Word) : Except Tape Tape :=
  if t.words.size < t.capacity then .ok { t with words := t.words.push v } else .error t

instance : Sink Tape where
  print := Tape.print

end Tape

end Bytecode
