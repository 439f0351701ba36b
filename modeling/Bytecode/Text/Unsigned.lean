/-
Reading an unsigned number below a bound from decimal text.

* `readDigits`: the digits from left to right. The first character that
  is no digit, or that takes the number to the bound, ends the reading;
* `readUnsigned`: the same after an optional `+`, with at least one
  character left;
* `NumberError`: why a text is no such number.
-/

namespace Bytecode.Text

/-- Why a text is no number. -/
inductive NumberError where
  /-- There is no text. -/
  | empty
  /-- A character is no digit, or a sign stands alone. -/
  | invalidDigit
  /-- The number is not below the bound. -/
  | tooLarge
  deriving DecidableEq

/-- The text of the reason. -/
def NumberError.message : NumberError → String
  | empty => "cannot parse integer from empty string"
  | invalidDigit => "invalid digit found in string"
  | tooLarge => "number too large to fit in target type"

/-- The value of a decimal digit. -/
def digitValue? (c : Char) : Option Nat :=
  if '0' ≤ c ∧ c ≤ '9' then some (c.toNat - '0'.toNat) else none

/-- Reads digits behind those that have given `n` so far. -/
def readDigits (bound n : Nat) : List Char → Except NumberError Nat
  | [] => .ok n
  | c :: rest =>
    match digitValue? c with
    | none => .error .invalidDigit
    | some d =>
      if 10 * n + d < bound then readDigits bound (10 * n + d) rest else .error .tooLarge

/-- Reads a number below the bound, with or without a `+` in front. -/
def readUnsigned (bound : Nat) (text : String) : Except NumberError Nat :=
  match text.toList with
  | [] => .error .empty
  | ['+'] => .error .invalidDigit
  | '+' :: digits => readDigits bound 0 digits
  | digits => readDigits bound 0 digits

end Bytecode.Text
