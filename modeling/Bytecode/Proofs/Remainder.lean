/-
How division, multiplication, addition and subtraction of words fit together, as
programs compute with them.

* `sub_div_mul_eq_mod`: a word less its quotient times the divisor is the remainder,
  whatever wraps on the way;
* `Machine.Yields`: how every run of instructions ends, and with which stack;
* `yields_stop`, `yields_divisionByZero`: straight code up to a `STOP`, and up to a
  `DIV` that finds a zero on top;
* `computeAll?_push_append`, `computeAll?_div_cons`: what the programs make of the stack,
  a part at a time;
* `arithmetic_fits_together`: the remainder, and a sum and a difference that undo each
  other.
-/
import Mathlib
import Bytecode.Proofs.Straight
import Bytecode.Proofs.Testimony

namespace Bytecode

/-! ### Words -/

/-- **The remainder**: the quotient times the divisor, taken from the dividend, leaves
the remainder. Where the quotient wraps, the product wraps back. -/
lemma Word.sub_div_mul_eq_mod (a b : Word) : a - a / b * b = a % b := by
  apply Int32.toInt_inj.mp
  calc (a - a / b * b).toInt
      = (a.toInt - a.toInt.tdiv b.toInt * b.toInt).bmod (2 ^ 32) := by
        rw [Int32.toInt_sub, Int32.toInt_mul, Int32.toInt_div, Int.bmod_mul_bmod,
          Int.sub_bmod_bmod]
    _ = (a % b).toInt.bmod (2 ^ 32) := by
        rw [Int32.toInt_mod, Int.tmod_def, Int.mul_comm]
    _ = (a % b).toInt := Int32.toInt_bmod _

/-- A remainder is smaller than the divisor. -/
lemma Word.abs_toInt_mod_lt (a : Word) {b : Word} (hb : b ≠ 0) :
    |(a % b).toInt| < |b.toInt| := by
  have hzero : b.toInt ≠ 0 := fun h => hb (Int32.toInt_inj.mp h)
  have hpos : 0 < b.toInt.natAbs := Int.natAbs_pos.mpr hzero
  rw [Int32.toInt_mod, Int.abs_eq_natAbs, Int.abs_eq_natAbs, Int.natAbs_tmod]
  exact_mod_cast Nat.mod_lt _ hpos

/-- A remainder is zero or has the sign of the dividend. -/
lemma Word.mod_eq_zero_or_sign_eq (a b : Word) :
    a % b = 0 ∨ (a % b).toInt.sign = a.toInt.sign := by
  rw [Int32.toInt_mod, Int.sign_tmod]
  split_ifs with hdvd
  · left
    apply Int32.toInt_inj.mp
    rw [Int32.toInt_mod]
    exact Int.tmod_eq_zero_of_dvd hdvd
  · exact .inr rfl

/-- The bytes of instructions, one after the other. -/
def Instruction.assembled (instructions : List Instruction) : Bytes :=
  (instructions.flatMap encode).toArray

namespace Machine

variable {capacity limits : Limits} {m : Machine} {stack : List Word}

/-! ### Runs of straight code -/

/-- Instructions are loaded under limits, and whatever the machine has been through, every
run of it comes to this answer and leaves this stack. It changes neither the registers nor
the sink. -/
structure Yields (capacity limits : Limits) (instructions : List Instruction)
    (answer : Except Fault Unit) (stack : List Word) : Prop where
  loads : ∃ m, load capacity limits (Instruction.assembled instructions) = .ok m
  returns : ∀ m, Life capacity limits (Instruction.assembled instructions) m →
    ∀ {σ : Type} [Sink σ] (s : σ), ∃ out, m.Returns s out ∧ out.answer = answer ∧
      out.machine.stack = stack ∧ out.machine.registers = m.registers ∧ out.sink = s

/-- Instructions that are loaded stand at the start of the code, for life. -/
lemma Life.holds {instructions : List Instruction}
    (h : Life capacity limits (Instruction.assembled instructions) m) :
    m.code.Holds 0 instructions := by
  rw [Code.Holds, h.toList_code, List.drop_zero]
  exact List.prefix_append _ _

/-- Runs of straight code come to what follows it, with what it makes of the empty
stack. -/
lemma Life.leadsTo {before after : List Instruction}
    (h : Life capacity limits (Instruction.assembled (before ++ after)) m)
    (hcompute : Instruction.computeAll? limits.stackSize before [] = some stack)
    {σ : Type} [Sink σ] (s : σ) :
    let behind : Machine :=
      { m.restart with ip := (before.flatMap Instruction.encode).length, stack }
    m.restart.LeadsTo s before.length behind ∧ behind.WellFormed ∧
      behind.code.Holds behind.ip after := by
  intro behind
  have hw : m.restart.WellFormed := h.wellFormed.restart
  obtain ⟨hbefore, hafter⟩ := h.holds.of_append
  have hlimits : m.restart.limits = limits := h.sameStorage.limits_eq
  rw [← hlimits] at hcompute
  have hleads := leadsTo_of_computeAll? hw rfl hbefore hcompute s
  rw [show m.restart.ip = 0 from rfl, Nat.zero_add] at hleads
  rw [Nat.zero_add] at hafter
  exact ⟨hleads, hleads.wellFormed hw, hafter⟩

variable {before after : List Instruction}

/-- Straight code up to a `STOP` yields what it makes of the empty stack. -/
lemma yields_stop (hcompute : Instruction.computeAll? limits.stackSize before [] = some stack)
    (hfits : ∀ r, Limits.Fits limits capacity r)
    (hsize : (Instruction.assembled (before ++ [.stop])).size ≤ limits.memorySize) :
    Yields capacity limits (before ++ [.stop]) (.ok ()) stack where
  loads := ⟨_, load_eq_ok_iff.mpr ⟨hfits, hsize, rfl⟩⟩
  returns m h _ _ s := by
    obtain ⟨hleads, hw, hcode⟩ := h.leadsTo hcompute s
    have hstep := step_of_decodeAt hw rfl hcode.of_cons.1 s
    exact ⟨_, hleads.returns hstep .stopped, rfl, rfl, rfl, rfl⟩

/-- Straight code up to a `DIV` that finds a zero on top of another word faults there. -/
lemma yields_divisionByZero {lower : Word} {rest : List Word}
    (hcompute : Instruction.computeAll? limits.stackSize before [] = some (0 :: lower :: rest))
    (hfits : ∀ r, Limits.Fits limits capacity r)
    (hsize : (Instruction.assembled (before ++ .div :: after)).size ≤ limits.memorySize) :
    Yields capacity limits (before ++ .div :: after)
      (.error (.divisionByZero (before.flatMap Instruction.encode).length))
      (0 :: lower :: rest) where
  loads := ⟨_, load_eq_ok_iff.mpr ⟨hfits, hsize, rfl⟩⟩
  returns m h _ _ s := by
    obtain ⟨hleads, hw, hcode⟩ := h.leadsTo hcompute s
    have hstep := step_of_decodeAt hw rfl hcode.of_cons.1 s
    exact ⟨_, hleads.returns hstep (.faulted _), rfl, rfl, rfl, rfl⟩

/-! ### The programs -/

section Programs

open Instruction (computeAll?)

variable {room : ℕ}

/-- Words that are pushed lie on the stack in reverse, the last one on top. -/
lemma computeAll?_push_append {words : List Word} (h : stack.length + words.length ≤ room)
    (rest : List Instruction) :
    computeAll? room (words.map .push ++ rest) stack
      = computeAll? room rest (words.reverse ++ stack) := by
  induction words generalizing stack with
  | nil => rfl
  | cons v words ih =>
      rw [List.length_cons] at h
      have hpush : (Instruction.push v).compute? room stack = some (v :: stack) :=
        if_pos (by omega)
      rw [List.map_cons, List.cons_append, computeAll?, hpush, Option.bind_some,
        ih (by rw [List.length_cons]; omega), List.reverse_cons, List.append_assoc]
      rfl

/-- A division by another word than zero leaves the quotient. -/
lemma computeAll?_div_cons (lower : Word) {upper : Word} (h : upper ≠ 0)
    (rest : List Instruction) (below : List Word) :
    computeAll? room (.div :: rest) (upper :: lower :: below)
      = computeAll? room rest (lower / upper :: below) := by
  have hquotient : Arithmetic.div.result? lower upper = some (lower / upper) := if_neg h
  have hdiv : Instruction.div.compute? room (upper :: lower :: below)
      = some (lower / upper :: below) := congrArg (Option.map (· :: below)) hquotient
  rw [computeAll?, hdiv, Option.bind_some]

/-- A dividend twice and a divisor, divided, multiplied by the divisor and subtracted,
leave the remainder. -/
lemma computeAll?_remainder (hroom : 3 ≤ room) (a : Word) {b : Word} (hb : b ≠ 0) :
    computeAll? room [.push a, .push a, .push b, .div, .push b, .mul, .sub] []
      = some [a % b] :=
  calc computeAll? room ([a, a, b].map .push ++ [.div, .push b, .mul, .sub]) []
      = computeAll? room [.div, .push b, .mul, .sub] [b, a, a] :=
        computeAll?_push_append hroom _
    _ = computeAll? room ([b].map .push ++ [.mul, .sub]) [a / b, a] :=
        computeAll?_div_cons a hb _ _
    _ = computeAll? room [.mul, .sub] [b, a / b, a] := computeAll?_push_append hroom _
    _ = some [a - a / b * b] := rfl
    _ = some [a % b] := by rw [Word.sub_div_mul_eq_mod]

/-- A word that is added and then subtracted leaves the other one. -/
lemma computeAll?_add_sub (hroom : 2 ≤ room) (a b : Word) :
    computeAll? room [.push a, .push b, .add, .push b, .sub] [] = some [a] :=
  calc computeAll? room ([a, b].map .push ++ [.add, .push b, .sub]) []
      = computeAll? room ([b].map .push ++ [.sub]) [a + b] := computeAll?_push_append hroom _
    _ = computeAll? room [.sub] [b, a + b] := computeAll?_push_append hroom _
    _ = some [a + b - b] := rfl
    _ = some [a] := by rw [Int32.add_sub_cancel]

/-- A word that is subtracted and then added leaves the other one. -/
lemma computeAll?_sub_add (hroom : 2 ≤ room) (a b : Word) :
    computeAll? room [.push a, .push b, .sub, .push b, .add] [] = some [a] :=
  calc computeAll? room ([a, b].map .push ++ [.sub, .push b, .add]) []
      = computeAll? room ([b].map .push ++ [.add]) [a - b] := computeAll?_push_append hroom _
    _ = computeAll? room [.add] [b, a - b] := computeAll?_push_append hroom _
    _ = some [a - b + b] := rfl
    _ = some [a] := by rw [Int32.sub_add_cancel]

end Programs

/-- **Arithmetic fits together**, for all words, under all limits that fit their capacities
and leave the program room, on a machine that has been through anything. A word less its
quotient times the divisor is smaller than the divisor, is zero or has the sign of the
word, and differs from it by a multiple of the divisor, also where the quotient wraps. By
zero the program faults at its `DIV`, which leaves the stack (top first) as it finds it.
Adding a word and subtracting it undo each other in either order, also where the result
in between wraps. -/
theorem arithmetic_fits_together (hfits : ∀ r, Limits.Fits limits capacity r) (a b : Word) :
    (3 ≤ limits.stackSize → 24 ≤ limits.memorySize →
      let program : List Instruction :=
        [.push a, .push a, .push b, .div, .push b, .mul, .sub, .stop]
      (b = 0 → Yields capacity limits program (.error (.divisionByZero 15)) [0, a, a]) ∧
      (b ≠ 0 → ∃ r : Word, Yields capacity limits program (.ok ()) [r] ∧
        |r.toInt| < |b.toInt| ∧ (r = 0 ∨ r.toInt.sign = a.toInt.sign) ∧
        b.toInt ∣ a.toInt - r.toInt)) ∧
    (2 ≤ limits.stackSize → 18 ≤ limits.memorySize →
      Yields capacity limits [.push a, .push b, .add, .push b, .sub, .stop] (.ok ()) [a] ∧
      Yields capacity limits [.push a, .push b, .sub, .push b, .add, .stop] (.ok ()) [a]) := by
  refine ⟨fun hstack hmemory => ⟨?_, fun hb => ⟨a % b, ?_, ?_, ?_, ?_⟩⟩,
    fun hstack hmemory => ⟨?_, ?_⟩⟩
  · rintro rfl
    have hcompute : Instruction.computeAll? limits.stackSize [.push a, .push a, .push 0] []
        = some [0, a, a] :=
      calc Instruction.computeAll? limits.stackSize ([a, a, 0].map .push ++ []) []
          = Instruction.computeAll? limits.stackSize [] [0, a, a] :=
            computeAll?_push_append hstack []
        _ = some [0, a, a] := rfl
    exact yields_divisionByZero hcompute hfits hmemory
  · exact yields_stop (computeAll?_remainder hstack a hb) hfits hmemory
  · exact Word.abs_toInt_mod_lt a hb
  · exact Word.mod_eq_zero_or_sign_eq a b
  · rw [Int32.toInt_mod]
    exact Int.dvd_self_sub_tmod
  · exact yields_stop (computeAll?_add_sub hstack a b) hfits hmemory
  · exact yields_stop (computeAll?_sub_add hstack a b) hfits hmemory

/-- The least word divided by `-1`, where the quotient wraps, and by zero, and the greatest
word with one added to it, on a machine with no more room than the program takes. -/
theorem arithmetic_fits_together_where_words_wrap :
    let limits : Limits := ⟨3, 1, 24⟩
    let least : Word := -2147483648
    let greatest : Word := 2147483647
    (∃ r : Word, Yields limits limits
      [.push least, .push least, .push (-1), .div, .push (-1), .mul, .sub, .stop] (.ok ()) [r] ∧
        |r.toInt| < 1 ∧ (-1) ∣ (-2147483648) - r.toInt) ∧
    Yields limits limits [.push least, .push least, .push 0, .div, .push 0, .mul, .sub, .stop]
      (.error (.divisionByZero 15)) [0, least, least] ∧
    Yields limits limits [.push greatest, .push 1, .add, .push 1, .sub, .stop] (.ok ())
      [greatest] := by
  intro limits least greatest
  have hfits : ∀ r, Limits.Fits limits limits r := fun r => by cases r <;> decide
  obtain ⟨hwraps, -⟩ := arithmetic_fits_together hfits least (-1)
  obtain ⟨hzero, -⟩ := arithmetic_fits_together hfits least 0
  obtain ⟨-, hundone⟩ := arithmetic_fits_together hfits greatest 1
  obtain ⟨r, hyields, hsmall, -, hdvd⟩ := (hwraps (by decide) (by decide)).2 (by decide)
  exact ⟨⟨r, hyields, hsmall, hdvd⟩, (hzero (by decide) (by decide)).1 rfl,
    (hundone (by decide) (by decide)).1⟩

end Machine

end Bytecode
