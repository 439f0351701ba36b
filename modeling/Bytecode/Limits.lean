/-
Limits: how deep the stack of a machine may grow, how many registers it
has and how many bytes of memory.

The storage of a machine has a capacity for each of the three, and the
limits that a program runs under have to fit the capacities.

* `Limits`: one number for each `Resource`, used for limits and for
  capacities alike;
* `Limits.check`: whether each limit lies between one and its capacity.
  The first resource for which it does not is reported;
* `LoadError`: why a program can not be loaded;
* `check_eq_ok_iff`: the check passes exactly if every limit is within
  its range.
-/
import Bytecode.Category
import Bytecode.Text.Numeral

namespace Bytecode

/-- What a machine has only so much of. -/
inductive Resource where
  | stack
  | registers
  | memory
  deriving DecidableEq

/-- The name of the limit on a resource in messages. -/
def Resource.option : Resource → String
  | .stack => "stack_size"
  | .registers => "num_registers"
  | .memory => "max_program_bytes"

/-- Why a program can not be loaded. -/
inductive LoadError where
  /-- A limit is zero or above its capacity. -/
  | limitOutOfRange (resource : Resource) (value capacity : Nat)
  /-- The program has more bytes than the memory. -/
  | programTooLarge (size capacity : Nat)
  deriving DecidableEq

namespace LoadError

/-- The text of a loading error. -/
def message : LoadError → String
  | limitOutOfRange resource value capacity =>
      resource.option ++ " of " ++ Text.decimal value ++ " must be between 1 and " ++
        Text.decimal capacity
  | programTooLarge size capacity =>
      "program of " ++ Text.decimal size ++ " bytes does not fit the " ++
        Text.decimal capacity ++ " byte instruction buffer"

/-- What kind of error it is. -/
def category : LoadError → Category
  | limitOutOfRange .. => .configuration
  | programTooLarge .. => .programLoadFailure

end LoadError

/-- How much there is of each resource. -/
structure Limits where
  /-- The number of words that the stack holds. -/
  stackSize : Nat
  /-- The number of registers. -/
  registerCount : Nat
  /-- The number of bytes of memory. -/
  memorySize : Nat
  deriving DecidableEq

namespace Limits

/-- The capacities of an ordinary machine. -/
def standard : Limits where
  stackSize := 256
  registerCount := 16
  memorySize := 65536

/-- How much there is of one resource. -/
def get (l : Limits) : Resource → Nat
  | .stack => l.stackSize
  | .registers => l.registerCount
  | .memory => l.memorySize

/-- The limits with another number for one resource. -/
def set (l : Limits) (r : Resource) (n : Nat) : Limits :=
  match r with
  | .stack => { l with stackSize := n }
  | .registers => { l with registerCount := n }
  | .memory => { l with memorySize := n }

/-- Whether the limit on a resource is at least one and no more than the
capacity. -/
def Fits (l capacity : Limits) (r : Resource) : Prop :=
  1 ≤ l.get r ∧ l.get r ≤ capacity.get r

instance (l capacity : Limits) (r : Resource) : Decidable (Fits l capacity r) :=
  inferInstanceAs (Decidable (_ ∧ _))

/-- Checks the limit on one resource. -/
def checkOne (l capacity : Limits) (r : Resource) : Except LoadError Unit :=
  if Fits l capacity r then .ok ()
  else .error (.limitOutOfRange r (l.get r) (capacity.get r))

/-- Checks the limits in the order stack, registers, memory. -/
def check (l capacity : Limits) : Except LoadError Unit := do
  checkOne l capacity .stack
  checkOne l capacity .registers
  checkOne l capacity .memory

/-- A limit that was set is the last number given for it, and the other
limits stay. -/
theorem get_set (l : Limits) (r s : Resource) (n : Nat) :
    (l.set r n).get s = if s = r then n else l.get s := by
  cases r <;> cases s <;> rfl

/-- **What the check accepts**: every limit within its range. -/
theorem check_eq_ok_iff {l capacity : Limits} :
    check l capacity = .ok () ↔ ∀ r, Fits l capacity r := by
  have h : (∀ r, Fits l capacity r) ↔
      Fits l capacity .stack ∧ Fits l capacity .registers ∧ Fits l capacity .memory :=
    ⟨fun h => ⟨h _, h _, h _⟩, fun h r => by
      cases r
      · exact h.1
      · exact h.2.1
      · exact h.2.2⟩
  rw [h]
  unfold check checkOne
  by_cases h1 : Fits l capacity .stack
  · by_cases h2 : Fits l capacity .registers
    · by_cases h3 : Fits l capacity .memory <;> simp [h1, h2, h3, bind, Except.bind]
    · simp [h1, h2, bind, Except.bind]
  · simp [h1, bind, Except.bind]

end Limits

end Bytecode
