/-
Pairs of instructions that undo or complement each other.

* `leadsTo_push_pop`: a push and a pop leave nothing but the pointer moved;
* `leadsTo_store_load`: a store and a load leave the stack as it was, and a copy of
  its top in the register;
* `leadsTo_jz_jnz`: a jump for zero and one for all other words to the same target
  are a jump;
* `pairs_undo_and_complement`: all three, on any machine that holds such a pair.
-/
import Mathlib
import Bytecode.Proofs.Simulation
import Bytecode.Proofs.Straight

namespace Bytecode.Machine

variable {σ : Type} [Sink σ] {m : Machine} {s : σ}

/-- **Push and pop**: with room for a word, nothing is left of it. -/
lemma leadsTo_push_pop (h : m.WellFormed) (hready : m.status = .ready) {v : Word}
    (hcode : m.code.Holds m.ip [.push v, .pop]) (hroom : m.depth < m.limits.stackSize) (s : σ) :
    m.LeadsTo s 2 { m with ip := m.ip + 6 } := by
  have hcompute : Instruction.computeAll? m.limits.stackSize [.push v, .pop] m.stack
      = some m.stack := by
    have hpush : (Instruction.push v).compute? m.limits.stackSize m.stack
        = some (v :: m.stack) := if_pos hroom
    rw [Instruction.computeAll?, hpush]
    rfl
  exact leadsTo_of_computeAll? h hready hcode hcompute s

/-! ### Registers -/

/-- The register that an effect sets has the word that is stored, and the others are as
they were. -/
lemma register?_after (h : m.WellFormed) {e : Effect} {r : UInt8} {v : Word}
    (hv : e.stored? = some (r, v)) (hr : r.toNat < m.limits.registerCount) (k : UInt8) :
    (m.after e).register? k = if k = r then some v else m.register? k := by
  have hle : (m.after e).limits.registerCount ≤ (m.after e).registers.size := by
    rw [(sameStorage_after m e).size_registers]
    exact h.registerCount_le
  by_cases hk : k.toNat < m.limits.registerCount
  · rw [register?, Reference.getElem?_visibleRegisters_after h e hk, hv]
    exact ite_congr (propext (by rw [UInt8.toNat_inj, eq_comm])) (fun _ => rfl) (fun _ => rfl)
  · have hne : k ≠ r := fun heq => hk (heq ▸ hr)
    rw [if_neg hne, register?_of_le hle (Nat.le_of_not_lt hk),
      register?_of_le h.registerCount_le (Nat.le_of_not_lt hk)]

/-- A store that finds a word moves it to its register. -/
lemma effect_store {r : UInt8} {v : Word} {rest : List Word}
    (hr : r.toNat < m.limits.registerCount) (hs : m.stack = v :: rest) (next : ℕ) :
    m.effect (.store r) next
      = .ok (some { stack := rest, ip := next, deed := .store r v }) := by
  rw [effect, if_neg (by omega), hs]

/-- A load that finds room puts the word of its register on the stack. -/
lemma effect_load {r : UInt8} {v : Word} (hr : m.register? r = some v)
    (hroom : m.depth < m.limits.stackSize) (next : ℕ) :
    m.effect (.load r) next = .ok (some { stack := v :: m.stack, ip := next }) := by
  rw [effect, hr]
  exact if_pos hroom

/-- **Store and load**: the stack is as it was, and its top is in the register, too. -/
lemma leadsTo_store_load (h : m.WellFormed) (hready : m.status = .ready) {r : UInt8} {v : Word}
    (hcode : m.code.Holds m.ip [.store r, .load r]) (hr : r.toNat < m.limits.registerCount)
    (htop : m.top? = some v) (s : σ) :
    m.LeadsTo s 2 (m.after { stack := m.stack, ip := m.ip + 4, deed := .store r v }) := by
  obtain ⟨rest, hs⟩ := List.head?_eq_some_iff.mp htop
  obtain ⟨hstore, hrest⟩ := hcode.of_cons
  obtain ⟨hload, -⟩ := hrest.of_cons
  -- between the two the word is in the register alone
  let moved : Effect := { stack := rest, ip := m.ip + 2, deed := .store r v }
  have hfirst : m.LeadsTo s 1 (m.after moved) :=
    leadsTo_after h hready hstore (effect_store hr hs _) rfl s
  have hregister : (m.after moved).register? r = some v := by
    rw [register?_after h (e := moved) rfl hr, if_pos rfl]
  have hroom : (m.after moved).depth < (m.after moved).limits.stackSize := length_rest_le h hs
  have hsecond : (m.after moved).LeadsTo s 1
      ((m.after moved).after { stack := v :: rest, ip := m.ip + 2 + 2 }) :=
    leadsTo_after (hfirst.wellFormed h) hready hload (effect_load hregister hroom _) rfl s
  rw [hs]
  exact hfirst.trans hsecond

/-! ### Jumps -/

/-- A conditional jump below the limit goes to its target if the top passes the test,
and else on. -/
lemma branch_eq_ok {op : Opcode} {target : UInt16} {test : Word → Bool} {v : Word}
    (ht : target.toNat < m.limits.memorySize) (htop : m.top? = some v) (next : ℕ) :
    m.branch op m.ip target test next = .ok (if test v then target.toNat else next) := by
  have hdestination : m.destination m.ip target = .ok target.toNat := if_neg (by omega)
  have hpeek : m.peek op m.ip = .ok v := by rw [peek, htop]
  rw [branch, hdestination, hpeek]
  rfl

/-- A jump below the limit goes to its target. -/
lemma effect_jmp {target : UInt16} (ht : target.toNat < m.limits.memorySize) (next : ℕ) :
    m.effect (.jmp target) next = .ok (some { stack := m.stack, ip := target.toNat }) := by
  have hdestination : m.destination m.ip target = .ok target.toNat := if_neg (by omega)
  rw [effect, hdestination]
  rfl

/-- A jump for zero goes to its target if the top is zero, and else on. -/
lemma effect_jz {target : UInt16} {v : Word} (ht : target.toNat < m.limits.memorySize)
    (htop : m.top? = some v) (next : ℕ) :
    m.effect (.jz target) next
      = .ok (some { stack := m.stack, ip := if v = 0 then target.toNat else next }) := by
  rw [effect, branch_eq_ok ht htop]
  simp [jumping]

/-- A jump for all words but zero goes on if the top is zero, and else to its target. -/
lemma effect_jnz {target : UInt16} {v : Word} (ht : target.toNat < m.limits.memorySize)
    (htop : m.top? = some v) (next : ℕ) :
    m.effect (.jnz target) next
      = .ok (some { stack := m.stack, ip := if v = 0 then next else target.toNat }) := by
  rw [effect, branch_eq_ok ht htop]
  simp [jumping]

/-- **Jumps that complement each other**: one for zero and behind it one for all other
words, to the same target, go there. Nothing else changes. -/
lemma leadsTo_jz_jnz (h : m.WellFormed) (hready : m.status = .ready) {target : UInt16} {v : Word}
    (hcode : m.code.Holds m.ip [.jz target, .jnz target])
    (ht : target.toNat < m.limits.memorySize) (htop : m.top? = some v) (s : σ) :
    m.LeadsTo s (if v = 0 then 1 else 2) { m with ip := target.toNat } := by
  obtain ⟨hjz, hrest⟩ := hcode.of_cons
  obtain ⟨hjnz, -⟩ := hrest.of_cons
  have hfirst := leadsTo_after h hready hjz (effect_jz ht htop _) rfl s
  by_cases hv : v = 0
  · rw [if_pos hv] at hfirst ⊢
    exact hfirst
  · -- the first has not popped the word that the second looks at
    rw [if_neg hv] at hfirst ⊢
    let passed : Machine := m.after { stack := m.stack, ip := m.ip + 3 }
    have htop' : passed.top? = some v := htop
    have hsecond := leadsTo_after (hfirst.wellFormed h) hready hjnz
      (effect_jnz (m := passed) ht htop' _) rfl s
    rw [if_neg hv] at hsecond
    exact hfirst.trans hsecond

/-- **Pairs that undo or complement each other**: on any well-formed machine that is
ready and holds such a pair at its instruction pointer, with any sink. A push and a pop,
with room for the word, leave nothing but the pointer moved. A store to a register and a
load from it leave the stack as it was, and a copy of its top in that register and in no
other. A jump for zero and one for all other words to the same target do what a jump to it
does in their place: one step gets there if the top is zero, and two if it is not, and
nothing else changes. No step prints. -/
theorem pairs_undo_and_complement (h : m.WellFormed) (hready : m.status = .ready) (s : σ) :
    (∀ v, m.code.Holds m.ip [.push v, .pop] → m.depth < m.limits.stackSize →
      m.LeadsTo s 2 { m with ip := m.ip + 6 }) ∧
    (∀ r v, m.code.Holds m.ip [.store r, .load r] → r.toNat < m.limits.registerCount →
      m.top? = some v →
        let after : Machine :=
          { m with ip := m.ip + 4, registers := m.registers.setIfInBounds r.toNat v }
        m.LeadsTo s 2 after ∧ ∀ k, after.register? k = if k = r then some v else m.register? k) ∧
    ∀ target v, m.code.Holds m.ip [.jz target, .jnz target] →
      target.toNat < m.limits.memorySize → m.top? = some v →
        m.LeadsTo s (if v = 0 then 1 else 2) { m with ip := target.toNat } ∧
        ∀ memory programSize,
          let other : Machine := { m with memory, programSize }
          other.WellFormed → other.code.Holds m.ip [.jmp target] →
            other.LeadsTo s 1 { other with ip := target.toNat } := by
  refine ⟨fun v hcode hroom => leadsTo_push_pop h hready hcode hroom s,
    fun r v hcode hr htop => ⟨leadsTo_store_load h hready hcode hr htop s,
      register?_after h (e := { stack := m.stack, ip := m.ip + 4, deed := .store r v }) rfl hr⟩,
    fun target v hcode ht htop => ⟨leadsTo_jz_jnz h hready hcode ht htop s, ?_⟩⟩
  intro memory programSize other hw hjmp
  exact leadsTo_after hw hready hjmp.of_cons.1 (effect_jmp (m := other) ht _) rfl s

/-- `PUSH 7`, `POP`, `PUSH 9`, `STORE r2`, `LOAD r2`, and at the end of the memory
`JZ 15` and `JNZ 15` at offset 15, with a stack of one word and three registers: the push
fills the stack, the register is the last one, and the jumps lead back to themselves. -/
theorem pairs_undo_and_complement_at_the_limits :
    let program : Bytes := #[1, 7, 0, 0, 0, 2, 1, 9, 0, 0, 0, 4, 2, 3, 2, 6, 15, 0, 7, 15, 0]
    let start := fresh ⟨8, 4, 32⟩ ⟨1, 3, 21⟩ program
    let storing := (start.steps (Tape.blank 0) 3).machine
    let turning := (start.steps (Tape.blank 0) 5).machine
    let jumping : Machine := { turning with
      memory := #[1, 7, 0, 0, 0, 2, 1, 9, 0, 0, 0, 4, 2, 3, 2, 5, 15, 0, 0, 0, 0]
      programSize := 21 }
    start.LeadsTo (Tape.blank 0) 2 { start with ip := 6 } ∧
      storing.LeadsTo (Tape.blank 0) 2 { storing with ip := 15, registers := #[0, 0, 9, 0] } ∧
      turning.LeadsTo (Tape.blank 0) 2 { turning with ip := 15 } ∧
      jumping.LeadsTo (Tape.blank 0) 1 { jumping with ip := 15 } := by
  intro program start storing turning jumping
  have hload : load ⟨8, 4, 32⟩ ⟨1, 3, 21⟩ program = .ok start :=
    load_eq_ok_iff.mpr ⟨fun r => by cases r <;> decide, by decide, rfl⟩
  have hstart : start.WellFormed := .of_load hload
  have hstoring : storing.WellFormed := hstart.steps _ 3
  have hturning : turning.WellFormed := hstart.steps _ 5
  -- a memory that a program fills has nothing behind it
  have hfilled (m : Machine) (memory : Bytes) (h : m.WellFormed)
      (hsize : memory.size = m.limits.memorySize) :
      WellFormed { m with memory, programSize := memory.size } :=
    { h with
      memorySize_le := hsize.ge
      programSize_le := hsize.le
      memory_eq_zero := fun p b hp hb =>
        absurd (Array.getElem?_eq_some_iff.mp hb).1 (Nat.not_lt_of_le hp) }
  have hjumping : jumping.WellFormed := hfilled turning _ hturning (by decide +kernel)
  obtain ⟨hpush, -⟩ := pairs_undo_and_complement hstart rfl (Tape.blank 0)
  obtain ⟨-, hstore, -⟩ := pairs_undo_and_complement hstoring (by decide +kernel) (Tape.blank 0)
  obtain ⟨-, -, hturn⟩ := pairs_undo_and_complement hturning (by decide +kernel) (Tape.blank 0)
  have hip : storing.ip = 11 := by decide +kernel
  have hregisters : storing.registers.setIfInBounds (2 : UInt8).toNat 9 = #[0, 0, 9, 0] := by
    decide +kernel
  obtain ⟨hstored, -⟩ := hstore 2 9 (by decide +kernel) (by decide +kernel) (by decide +kernel)
  rw [hip, hregisters] at hstored
  obtain ⟨hturned, hjump⟩ := hturn 15 9 (by decide +kernel) (by decide +kernel) (by decide +kernel)
  exact ⟨hpush 7 (by decide +kernel) (by decide +kernel), hstored, hturned,
    hjump _ _ hjumping (by decide +kernel)⟩

end Bytecode.Machine
