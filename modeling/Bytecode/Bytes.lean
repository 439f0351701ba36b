/-
Byte strings, numbers as bytes with the least significant one first, and
writing into a byte string in place.

* `littleEndian w n` and `ofLittleEndian`: a number in `w` bytes, and the
  number that bytes stand for;
* `Bytes.overwrite?`: new bytes at an offset, only if all of them fit;
* `Bytes.changeFrom?`: a change in place of what lies behind an offset;
* `addOffset?`: the sum of two offsets, which are numbers of 64 bits;
* `size_overwrite`: writing keeps the size.
-/

namespace Bytecode

/-- A byte string. -/
abbrev Bytes := Array UInt8

/-- The low `w` bytes of `n`, least significant first. -/
def littleEndian : Nat → Nat → List UInt8
  | 0, _ => []
  | w + 1, n => UInt8.ofNat n :: littleEndian w (n / 256)

/-- The number that bytes stand for, least significant first. -/
def ofLittleEndian : List UInt8 → Nat
  | [] => 0
  | b :: rest => b.toNat + 256 * ofLittleEndian rest

/-- Offsets lie below this bound. -/
def offsetBound : Nat := 18446744073709551616

/-- The sum of two offsets, if it is an offset. -/
def addOffset? (p n : Nat) : Option Nat :=
  if p + n < offsetBound then some (p + n) else none

/-- A number in `w` bytes takes `w` bytes. -/
@[simp] theorem length_littleEndian (w n : Nat) : (littleEndian w n).length = w := by
  induction w generalizing n with
  | zero => rfl
  | succ w ih => simp [littleEndian, ih]

namespace Bytes

/-- Replaces the bytes from offset `p` on by the given ones. What lies
past the end is dropped. -/
def overwrite (b : Bytes) (p : Nat) : List UInt8 → Bytes
  | [] => b
  | x :: rest => overwrite (b.setIfInBounds p x) (p + 1) rest

/-- Replaces the bytes from offset `p` on, if all the new ones fit. -/
def overwrite? (b : Bytes) (p : Nat) (new : List UInt8) : Option Bytes :=
  if p + new.length ≤ b.size then some (b.overwrite p new) else none

/-- Changes the bytes from offset `p` on in place, and answers what the change
answers. There is nothing to change behind the end. -/
def changeFrom? {α : Type} (b : Bytes) (p : Nat) (f : Bytes → α × Bytes) : Option (α × Bytes) :=
  if p ≤ b.size then
    let (answer, rest) := f (b.extract p b.size)
    some (answer, b.extract 0 p ++ rest)
  else none

/-- Overwriting keeps the size. -/
@[simp] theorem size_overwrite (b : Bytes) (p : Nat) (new : List UInt8) :
    (b.overwrite p new).size = b.size := by
  induction new generalizing b p with
  | nil => rfl
  | cons x rest ih => rw [overwrite, ih, Array.size_setIfInBounds]

end Bytes

end Bytecode
