/-
Numbers as text.

* `decimal_eq` and `integer_eq`: the decimal texts are the usual ones;
* `notMem_integer` and `notMem_hex`: a number is written with its digits and sign
  alone, so that it takes no more than one line, and is one word on it;
* `integer_injective` (**no two integers share their text**);
* `ofDigits_digits` (**reading back**): digits stand for the number that they are
  written for, so that no two numbers share their text in one base and width
  (`hex_injective`);
* `length_integer_le`, `length_hex_le`: how long the text of a number is.
-/
import Mathlib
import Bytecode.Text.Numeral

namespace Bytecode.Text

/-- The digits of a number need no zero in front. -/
lemma digits_ten_one (n : ℕ) : digits 10 1 n = Nat.toDigits 10 n := by
  have hpos : 0 < (Nat.toDigits 10 n).length := Nat.length_toDigits_pos
  rw [digits, List.leftpad, Nat.sub_eq_zero_of_le hpos]
  rfl

/-- The decimal text of a natural number is the usual one. -/
lemma decimal_eq (n : ℕ) : decimal n = toString n := by
  rw [decimal, digits_ten_one, ← Nat.repr_eq_ofList_toDigits]
  rfl

/-- The decimal text of an integer is the usual one. -/
lemma integer_eq (n : ℤ) : integer n = toString n := by
  cases n with
  | ofNat n => exact decimal_eq n
  | negSucc n =>
      rw [integer, decimal_eq]
      rfl

/-- A natural number is written with digits alone. -/
lemma isDigit_of_mem_decimal {n : ℕ} {c : Char} (h : c ∈ (decimal n).toList) :
    c.isDigit = true := by
  rw [decimal, digits_ten_one, String.toList_ofList] at h
  exact Nat.isDigit_of_mem_toDigits (by norm_num) le_rfl h

/-- A character that is neither a digit nor the sign is not in the text of a number. -/
lemma notMem_integer {c : Char} (hdigit : c.isDigit = false) (hsign : c ≠ '-') (n : ℤ) :
    c ∉ (integer n).toList := by
  have hdecimal : ∀ n, c ∉ (decimal n).toList := fun n h => by
    rw [isDigit_of_mem_decimal h] at hdigit
    cases hdigit
  cases n with
  | ofNat n => exact hdecimal n
  | negSucc n =>
      rw [integer, String.toList_append, List.mem_append, not_or]
      exact ⟨by simpa using hsign, hdecimal _⟩

/-- **No two integers share their text.** -/
theorem integer_injective : Function.Injective integer := by
  intro a b h
  rw [integer_eq, integer_eq] at h
  exact Int.repr_injective h

/-! ### Digits in any base -/

/-- The value of a digit in a base of at most sixteen. -/
def digitOf (c : Char) : ℕ :=
  if c.isDigit then c.toNat - 48 else c.toNat - 87

/-- The number that digits stand for in a base, most significant first. -/
def ofDigits (base : ℕ) (cs : List Char) : ℕ :=
  cs.foldl (fun n c => base * n + digitOf c) 0

/-- A digit has the value that it is written for. -/
lemma digitOf_digitChar : ∀ d < 16, digitOf d.digitChar = d := by
  decide

/-- The digits of a number stand for it. -/
lemma ofDigits_toDigits {base : ℕ} (hlow : 1 < base) (hhigh : base ≤ 16) (n : ℕ) :
    ofDigits base (Nat.toDigits base n) = n := by
  induction n using Nat.strong_induction_on with
  | _ n ih =>
    rcases Nat.lt_or_ge n base with hlt | hge
    · rw [Nat.toDigits_of_lt_base hlt, ofDigits, List.foldl_cons, List.foldl_nil,
        digitOf_digitChar n (by omega)]
      omega
    · have hdiv : n / base < n := Nat.div_lt_self (by omega) hlow
      have hmod : n % base < base := Nat.mod_lt n (by omega)
      have hfront := ih (n / base) hdiv
      rw [ofDigits] at hfront
      rw [Nat.toDigits_of_base_le hlow hge, ofDigits, List.foldl_append, hfront,
        List.foldl_cons, List.foldl_nil, digitOf_digitChar _ (by omega)]
      exact Nat.div_add_mod n base

/-- **Reading back**: digits stand for their number, whatever zeros are in front
of them. -/
theorem ofDigits_digits {base : ℕ} (hlow : 1 < base) (hhigh : base ≤ 16) (width n : ℕ) :
    ofDigits base (digits base width n) = n := by
  have hzeros : ∀ k, (List.replicate k '0').foldl (fun n c => base * n + digitOf c) 0 = 0 := by
    intro k
    induction k with
    | zero => rfl
    | succ k ih =>
        rw [List.replicate_succ, List.foldl_cons]
        exact ih
  have hback := ofDigits_toDigits hlow hhigh n
  rw [ofDigits] at hback
  rw [ofDigits, digits, List.leftpad, List.foldl_append, hzeros, hback]

/-- No two numbers have the same digits. -/
lemma digits_injective {base : ℕ} (hlow : 1 < base) (hhigh : base ≤ 16) (width : ℕ) :
    Function.Injective (digits base width) := by
  intro m n h
  rw [← ofDigits_digits hlow hhigh width m, h, ofDigits_digits hlow hhigh]

/-- No two numbers share their decimal text. -/
lemma decimal_injective : Function.Injective decimal := fun _ _ h =>
  digits_injective (by norm_num) (by norm_num) 1 (String.ofList_injective h)

/-- **No two numbers share their text in base sixteen.** -/
theorem hex_injective (width : ℕ) : Function.Injective (hex width) := fun _ _ h =>
  digits_injective (by norm_num) le_rfl width (String.ofList_injective h)

/-- A number is written with digits alone. -/
lemma exists_digitChar_of_mem_toDigits {base n : ℕ} (hbase : 1 < base) {c : Char}
    (h : c ∈ Nat.toDigits base n) : ∃ d, c = Nat.digitChar d := by
  induction n using Nat.strong_induction_on with
  | _ n ih =>
    rcases Nat.lt_or_ge n base with hlt | hge
    · rw [Nat.toDigits_of_lt_base hlt] at h
      exact ⟨n, List.mem_singleton.mp h⟩
    · rw [Nat.toDigits_of_base_le hbase hge] at h
      rcases List.mem_append.mp h with h | h
      · exact ih (n / base) (Nat.div_lt_self (by omega) hbase) h
      · exact ⟨n % base, List.mem_singleton.mp h⟩

/-- A character that is no digit is not in the text of a number in base sixteen. -/
lemma notMem_hex {c : Char} (hc : ∀ d, Nat.digitChar d ≠ c) (width n : ℕ) :
    c ∉ (hex width n).toList := by
  rw [hex, digits, String.toList_ofList, List.leftpad, List.mem_append, not_or]
  constructor
  · intro h
    exact hc 0 (List.mem_replicate.mp h).2.symm
  · intro h
    obtain ⟨d, hd⟩ := exists_digitChar_of_mem_toDigits (by norm_num) h
    exact hc d hd.symm

/-! ### Lengths -/

/-- The decimal text of a number below a power of ten. -/
lemma length_decimal_le {n k : ℕ} (hk : 0 < k) (h : n < 10 ^ k) :
    (decimal n).toList.length ≤ k := by
  rw [decimal, digits_ten_one, String.toList_ofList]
  exact (Nat.length_toDigits_le_iff (by norm_num) hk).mpr h

/-- The decimal text of an integer between powers of ten, with its sign. -/
lemma length_integer_le {n : ℤ} {k : ℕ} (hk : 0 < k) (h : n.natAbs < 10 ^ k) :
    (integer n).toList.length ≤ k + 1 := by
  cases n with
  | ofNat n => exact (length_decimal_le hk h).trans (Nat.le_succ k)
  | negSucc n =>
      rw [integer, String.toList_append, List.length_append, Nat.add_comm]
      exact Nat.add_le_add_right (length_decimal_le hk h) 1

/-- The text in base sixteen of a number that fits its width. -/
lemma length_hex_le {width n : ℕ} (hwidth : 0 < width) (h : n < 16 ^ width) :
    (hex width n).toList.length ≤ width := by
  have hlength := (Nat.length_toDigits_le_iff (by norm_num) hwidth).mpr h
  rw [hex, digits, String.toList_ofList, List.leftpad, List.length_append, List.length_replicate]
  omega

/-- A text takes at most four bytes for a character. -/
lemma utf8ByteSize_le (text : String) : text.utf8ByteSize ≤ 4 * text.toList.length := by
  rw [← String.ofList_toList (s := text), String.utf8ByteSize_ofList, String.toList_ofList]
  induction text.toList with
  | nil => simp
  | cons c rest ih =>
      have hc := c.utf8Size_le_four
      rw [String.utf8Len_cons, List.length_cons]
      omega

end Bytecode.Text
