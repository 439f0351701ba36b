/-
Bytes and the numbers that they stand for, and what a buffer holds after
a write.

* `ofLittleEndian_littleEndian` (**reading back**): the low bytes of a
  number stand for that number up to a multiple of `256 ^ w`;
* `littleEndian_ofLittleEndian`: bytes are determined by the number that
  they stand for and their count;
* `Bytes.toList_overwrite`: a write that fits replaces exactly the bytes
  at its place.
-/
import Mathlib
import Bytecode.Bytes

namespace Bytecode

/-- Bytes stand for a number below `256` to their count. -/
lemma ofLittleEndian_lt (bytes : List UInt8) :
    ofLittleEndian bytes < 256 ^ bytes.length := by
  induction bytes with
  | nil => simp [ofLittleEndian]
  | cons b rest ih =>
      have hb := b.toNat_lt
      rw [ofLittleEndian, List.length_cons, pow_succ]
      omega

/-- **Reading back**: the low bytes of `n` stand for `n` up to a multiple
of `256 ^ w`. -/
theorem ofLittleEndian_littleEndian (w n : ℕ) :
    ofLittleEndian (littleEndian w n) = n % 256 ^ w := by
  induction w generalizing n with
  | zero => rw [littleEndian, ofLittleEndian, pow_zero, Nat.mod_one]
  | succ w ih =>
      rw [littleEndian, ofLittleEndian, ih, pow_succ', Nat.mod_mul]
      simp

/-- Bytes are determined by the number that they stand for and their
count. -/
theorem littleEndian_ofLittleEndian (bytes : List UInt8) :
    littleEndian bytes.length (ofLittleEndian bytes) = bytes := by
  induction bytes with
  | nil => rfl
  | cons b rest ih =>
      have hb := b.toNat_lt
      have hdiv : (b.toNat + 256 * ofLittleEndian rest) / 256 = ofLittleEndian rest := by
        omega
      rw [List.length_cons, ofLittleEndian, littleEndian, hdiv, ih]
      congr 1
      apply UInt8.toNat_inj.mp
      simp

namespace Bytes

/-- **A write in place**: the bytes before and behind it stay, and the
new ones stand between them. -/
theorem toList_overwrite (b : Bytes) {p : ℕ} {new : List UInt8}
    (h : p + new.length ≤ b.size) :
    (b.overwrite p new).toList = b.toList.take p ++ new ++ b.toList.drop (p + new.length) := by
  induction new generalizing b p with
  | nil => simp [overwrite]
  | cons x rest ih =>
      rw [List.length_cons] at h
      have hp : p < b.toList.length := by
        rw [Array.length_toList]
        omega
      have hset : b.toList.set p x = b.toList.take p ++ x :: b.toList.drop (p + 1) := by
        rw [List.set_eq_take_append_cons_drop, if_pos hp]
      have hlen : (b.toList.take p).length = p := by
        rw [List.length_take]
        omega
      rw [overwrite, ih _ (by rw [Array.size_setIfInBounds]; omega), Array.toList_setIfInBounds,
        List.take_set, List.drop_set_of_lt (by omega), List.length_cons,
        show p + 1 + rest.length = p + (rest.length + 1) by omega]
      congr 1
      rw [← List.take_set, hset, List.take_append, hlen]
      simp

end Bytes

end Bytecode
