/-
Which texts are numbers below a bound.

* `Numeral`: a text stands for a number below a bound, as digits with or without
  a `+` in front;
* `readDigits_eq_ok_iff`: digits are read to their value, however early the
  reading of too large a number ends;
* `readUnsigned_eq_ok_iff` (**what is read as a number**): the texts that stand for
  it, and no others.
-/
import Mathlib
import Bytecode.Text.Unsigned

namespace Bytecode.Text

/-- A text stands for a number below the bound: at least one digit, with or
without a `+` in front. -/
def Numeral (bound : ℕ) (text : String) (n : ℕ) : Prop :=
  ∃ digits : List Char, (text.toList = digits ∨ text.toList = '+' :: digits) ∧ digits ≠ [] ∧
    (∀ c ∈ digits, c.isDigit = true) ∧ Nat.ofDigitChars 10 digits 0 = n ∧ n < bound

variable {bound n m : ℕ}

/-- A character has a value exactly if it is a digit. -/
lemma digitValue?_eq (c : Char) :
    digitValue? c = if c.isDigit = true then some (c.toNat - '0'.toNat) else none := by
  have hdigit : ('0' ≤ c ∧ c ≤ '9') ↔ c.isDigit = true := by
    rw [Char.isDigit_iff_toNat, Char.le_def, Char.le_def, UInt32.le_iff_toNat_le,
      UInt32.le_iff_toNat_le]
    rfl
  rw [digitValue?]
  exact if_congr hdigit rfl rfl

/-- More digits do not make a number smaller. -/
lemma le_ofDigitChars (digits : List Char) : n ≤ Nat.ofDigitChars 10 digits n := by
  induction digits generalizing n with
  | nil => rw [Nat.ofDigitChars_nil]
  | cons c rest ih =>
      rw [Nat.ofDigitChars_cons]
      exact le_trans (by omega) ih

/-- **Digits are read to their value**, if that is below the bound. Too large a
number is found out before its end, but no digit behind makes it smaller. -/
lemma readDigits_eq_ok_iff (hn : n < bound) (digits : List Char) :
    readDigits bound n digits = .ok m ↔
      (∀ c ∈ digits, c.isDigit = true) ∧ Nat.ofDigitChars 10 digits n = m ∧ m < bound := by
  induction digits generalizing n with
  | nil =>
      rw [readDigits, Nat.ofDigitChars_nil, Except.ok.injEq]
      constructor
      · rintro rfl
        exact ⟨by rintro _ ⟨⟩, rfl, hn⟩
      · exact fun h => h.2.1
  | cons c rest ih =>
      rw [readDigits, digitValue?_eq, Nat.ofDigitChars_cons]
      by_cases hc : c.isDigit = true
      · rw [if_pos hc]
        dsimp only
        by_cases hlt : 10 * n + (c.toNat - '0'.toNat) < bound
        · rw [if_pos hlt, ih hlt, List.forall_mem_cons]
          exact and_congr_left fun _ => (and_iff_right hc).symm
        · rw [if_neg hlt]
          constructor
          · rintro ⟨⟩
          · rintro ⟨-, rfl, hm⟩
            exact absurd (lt_of_le_of_lt (le_ofDigitChars rest) hm) hlt
      · rw [if_neg hc]
        constructor
        · rintro ⟨⟩
        · exact fun h => absurd (h.1 c List.mem_cons_self) hc

/-- A sign is no digit. -/
lemma not_digits_of_plus {rest : List Char} : ¬ ∀ c ∈ '+' :: rest, c.isDigit = true := fun h =>
  absurd (h '+' List.mem_cons_self) (by decide)

/-- **What is read as a number** below a bound: the texts that stand for it. -/
theorem readUnsigned_eq_ok_iff (hbound : 0 < bound) (text : String) :
    readUnsigned bound text = .ok n ↔ Numeral bound text n := by
  have hread := fun digits => readDigits_eq_ok_iff (m := n) hbound digits
  rw [readUnsigned, Numeral]
  split
  next h =>
    rw [h]
    constructor
    · rintro ⟨⟩
    · rintro ⟨digits, rfl | hplus, hne, -⟩
      · exact absurd rfl hne
      · cases hplus
  next h =>
    rw [h]
    constructor
    · rintro ⟨⟩
    · rintro ⟨digits, rfl | hplus, hne, hdigits, -⟩
      · exact absurd hdigits not_digits_of_plus
      · exact absurd (List.cons.inj hplus).2.symm hne
  next digits hne h =>
    rw [h, hread]
    constructor
    · exact fun hvalue => ⟨digits, .inr rfl, hne, hvalue⟩
    · rintro ⟨digits', rfl | hplus, -, hvalue⟩
      · exact absurd hvalue.1 not_digits_of_plus
      · rwa [(List.cons.inj hplus).2]
  next hne _ hplus =>
    rw [hread]
    constructor
    · exact fun hvalue => ⟨text.toList, .inl rfl, hne, hvalue⟩
    · rintro ⟨digits, rfl | hsign, -, hvalue⟩
      · exact hvalue
      · exact absurd hsign (hplus digits)

/-- The largest number of 64 bits, with a sign and a zero that it does not need. -/
example : readUnsigned 18446744073709551616 "+018446744073709551615"
    = .ok 18446744073709551615 := by decide +kernel

end Bytecode.Text
