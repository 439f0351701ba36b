/-
Faults tell the truth: what a faulted machine says about itself can be read
off the state that it was left in.

* `Instruction.StandsAt`: where the bytes of an instruction are;
* `Opcode.takes`: how many words an operation needs on the stack;
* `Fault.TrueOf`: what every fault says, clause by clause;
* `Machine.BearsOut`: that it is true of a machine;
* `bearsOut_of_effect`, `bearsOut_of_fetch`, `bearsOut_outputRefused`: a machine
  bears out the fault of an instruction, of there being none, and of a sink;
* `fault_is_true` (**testimony**): the fault in the status of a machine is true
  of it, for life.
-/
import Mathlib
import Bytecode.Proofs.Life
import Bytecode.Proofs.Simulation
import Bytecode.Proofs.Tiling

namespace Bytecode

/-- The bytes of an instruction stand at an offset of a memory. -/
def Instruction.StandsAt (i : Instruction) (memory : List UInt8) (offset : ℕ) : Prop :=
  i.encode <+: memory.drop offset

/-- The first byte of an instruction is that of its opcode. -/
lemma Instruction.StandsAt.getElem?_eq {i : Instruction} {memory : List UInt8} {offset : ℕ}
    (h : i.StandsAt memory offset) : memory[offset]? = some i.opcode.byte := by
  obtain ⟨rest, hrest⟩ := h
  have hfirst : (memory.drop offset)[0]? = some i.opcode.byte := by rw [← hrest]; rfl
  simpa using hfirst

/-- How many words an operation needs on the stack. -/
def Opcode.takes : Opcode → ℕ
  | .add | .sub | .mul | .div => 2
  | .pop | .store | .jz | .jnz | .print => 1
  | .nop | .push | .load | .jmp | .stop => 0

/-- What a fault says about the machine that it has stopped, under the limits
that the machine was given and with the memory that it has loaded. -/
def Fault.TrueOf (limits : Limits) (memory : List UInt8) (m : Machine) : Fault → Prop
  | .undecodable (.pastEnd n) =>
      n = limits.memorySize ∧
        (m.ip = n ∨ m.ip < n ∧ ∃ op : Opcode, memory[m.ip]? = some op.byte ∧ n < m.ip + op.size)
  | .undecodable (.unknownOpcode offset byte) =>
      offset = m.ip ∧ memory[m.ip]? = some byte ∧ 14 ≤ byte.toNat
  | .stackOverflow offset v =>
      offset = m.ip ∧ m.depth = limits.stackSize ∧
        ((Instruction.push v).StandsAt memory m.ip ∨
          ∃ r, (Instruction.load r).StandsAt memory m.ip ∧ r.toNat < limits.registerCount ∧
            m.register? r = some v)
  | .stackUnderflow op offset needed found =>
      offset = m.ip ∧ (∃ i : Instruction, i.StandsAt memory m.ip ∧ i.opcode = op) ∧
        needed = op.takes ∧ found = m.depth ∧ m.depth < needed
  | .invalidRegister offset r =>
      offset = m.ip ∧ limits.registerCount ≤ r.toNat ∧
        ((Instruction.load r).StandsAt memory m.ip ∨ (Instruction.store r).StandsAt memory m.ip)
  | .invalidTarget offset target =>
      offset = m.ip ∧ limits.memorySize ≤ target.toNat ∧
        ∃ i ∈ [Instruction.jmp target, .jz target, .jnz target], i.StandsAt memory m.ip
  | .divisionByZero offset =>
      offset = m.ip ∧ Instruction.div.StandsAt memory m.ip ∧ 2 ≤ m.depth ∧ m.top? = some 0
  | .outputRefused offset =>
      offset = m.ip ∧ Instruction.print.StandsAt memory m.ip ∧ 1 ≤ m.depth

namespace Machine

/-- A machine bears a fault out if the fault is true of it under its own limits
and with its own memory. -/
def BearsOut (m : Machine) (fault : Fault) : Prop :=
  fault.TrueOf m.limits m.code.toList m

variable {m : Machine} {i : Instruction} {fault : Fault} {next : ℕ}

/-! ### The fault of an instruction -/

/-- Too few words are too few for the operation that stands there. -/
lemma bearsOut_underflow (hi : i.StandsAt m.code.toList m.ip) {needed : ℕ}
    (hneeded : i.opcode.takes = needed) (hd : m.depth < needed) :
    m.BearsOut (m.underflow i.opcode m.ip needed) :=
  ⟨rfl, ⟨i, hi, rfl⟩, hneeded.symm, rfl, hd⟩

/-- The fault of an operation that takes the top of the stack is that there is
none. -/
lemma bearsOut_of_taking {α : Type} {f : Word → List Word → α}
    (hi : i.StandsAt m.code.toList m.ip) (htakes : i.opcode.takes = 1)
    (hf : (match m.stack with
      | [] => .error (m.underflow i.opcode m.ip 1)
      | v :: rest => .ok (f v rest)) = Except.error fault) : m.BearsOut fault := by
  cases hs : m.stack with
  | nil =>
      simp only [hs, Except.error.injEq] at hf
      rw [← hf]
      exact bearsOut_underflow hi htakes (by simp [depth, hs])
  | cons v rest => simp [hs] at hf

/-- The fault of a push is a full stack. -/
lemma fault_of_pushing (h : m.WellFormed) {v : Word} (hf : m.pushing v next = .error fault) :
    fault = .stackOverflow m.ip v ∧ m.depth = m.limits.stackSize := by
  have hdepth := h.depth_le
  rw [pushing] at hf
  split_ifs at hf with hd
  cases hf
  exact ⟨rfl, by omega⟩

/-- The fault of an operation on two words is that there are fewer, or that the
divisor is zero. -/
lemma bearsOut_of_combining (op : Arithmetic) (hop : i.opcode = op.opcode)
    (hi : i.StandsAt m.code.toList m.ip) (hf : m.combining op next = .error fault) :
    m.BearsOut fault := by
  have htakes : i.opcode.takes = 2 := by rw [hop]; cases op <;> rfl
  rw [combining] at hf
  rcases hs : m.stack with _ | ⟨upper, _ | ⟨lower, rest⟩⟩
  · simp only [hs, Except.error.injEq] at hf
    rw [← hf, ← hop]
    exact bearsOut_underflow hi htakes (by simp [depth, hs])
  · simp only [hs, Except.error.injEq] at hf
    rw [← hf, ← hop]
    exact bearsOut_underflow hi htakes (by simp [depth, hs])
  · cases op with
    | div =>
        have hdiv : i = .div := by
          rw [← i.ofOperand_operand, hop]
          rfl
        subst hdiv
        by_cases hzero : upper = 0
        · simp only [hs, Arithmetic.result?, if_pos hzero, Except.error.injEq] at hf
          rw [← hf]
          exact ⟨rfl, hi, by simp [depth, hs], by rw [top?, hs, hzero]; rfl⟩
        · simp [hs, Arithmetic.result?, hzero] at hf
    | _ => simp [hs, Arithmetic.result?] at hf

/-- The fault of a jump is that of the check of where it leads. -/
lemma eq_error_of_jumping {destination : Except Fault ℕ}
    (hf : m.jumping destination = .error fault) : destination = .error fault := by
  cases destination with
  | error fault' =>
      cases hf
      rfl
  | ok offset => cases hf

/-- The fault of a target is that it lies outside the memory. -/
lemma bearsOut_of_destination {target : UInt16}
    (hjump : i ∈ [Instruction.jmp target, .jz target, .jnz target])
    (hi : i.StandsAt m.code.toList m.ip) (hf : m.destination m.ip target = .error fault) :
    m.BearsOut fault := by
  rw [destination] at hf
  split_ifs at hf with hout
  cases hf
  exact ⟨rfl, hout, i, hjump, hi⟩

/-- The fault of a conditional jump is that of its target, or the word that its
test lacks. -/
lemma bearsOut_of_branch {target : UInt16} {test : Word → Bool}
    (hjump : i ∈ [Instruction.jmp target, .jz target, .jnz target])
    (htakes : i.opcode.takes = 1) (hi : i.StandsAt m.code.toList m.ip)
    (hf : m.branch i.opcode m.ip target test next = .error fault) : m.BearsOut fault := by
  rw [branch] at hf
  cases hd : m.destination m.ip target with
  | error fault' =>
      rw [hd] at hf
      cases hf
      exact bearsOut_of_destination hjump hi hd
  | ok destination =>
      rw [hd] at hf
      cases hs : m.stack with
      | nil =>
          simp only [peek, top?, hs, List.head?_nil, bind, Except.bind, Except.error.injEq] at hf
          rw [← hf]
          exact bearsOut_underflow hi htakes (by simp [depth, hs])
      | cons v rest => simp [peek, top?, hs, bind, Except.bind, pure, Except.pure] at hf

/-- **The fault of an instruction** is true of the machine. -/
theorem bearsOut_of_effect (h : m.WellFormed) (hi : i.StandsAt m.code.toList m.ip)
    (hf : m.effect i next = .error fault) : m.BearsOut fault := by
  cases i with
  | nop => cases hf
  | push v =>
      obtain ⟨rfl, hfull⟩ := fault_of_pushing h hf
      exact ⟨rfl, hfull, .inl hi⟩
  | pop => exact bearsOut_of_taking hi rfl hf
  | load r =>
      rw [effect] at hf
      by_cases hr : r.toNat < m.limits.registerCount
      · -- a register below the limit is in view, so only the push can fail
        cases hv : m.register? r with
        | none =>
            rw [register?_of_lt h.registerCount_le hr, Array.getElem?_eq_none_iff] at hv
            exact absurd (hr.trans_le h.registerCount_le) (Nat.not_lt.mpr hv)
        | some v =>
            obtain ⟨rfl, hfull⟩ := fault_of_pushing h (by simpa [hv] using hf)
            exact ⟨rfl, hfull, .inr ⟨r, hi, hr, hv⟩⟩
      · have hr' : m.limits.registerCount ≤ r.toNat := Nat.le_of_not_lt hr
        simp only [register?_of_le h.registerCount_le hr', Except.error.injEq] at hf
        rw [← hf]
        exact ⟨rfl, hr', .inl hi⟩
  | store r =>
      rw [effect] at hf
      by_cases hr : m.limits.registerCount ≤ r.toNat
      · simp only [if_pos hr, Except.error.injEq] at hf
        rw [← hf]
        exact ⟨rfl, hr, .inr hi⟩
      · rw [if_neg hr] at hf
        exact bearsOut_of_taking hi rfl hf
  | jmp target => exact bearsOut_of_destination (by simp) hi (eq_error_of_jumping hf)
  | jz target => exact bearsOut_of_branch (by simp) rfl hi (eq_error_of_jumping hf)
  | jnz target => exact bearsOut_of_branch (by simp) rfl hi (eq_error_of_jumping hf)
  | add => exact bearsOut_of_combining .add rfl hi hf
  | sub => exact bearsOut_of_combining .sub rfl hi hf
  | mul => exact bearsOut_of_combining .mul rfl hi hf
  | div => exact bearsOut_of_combining .div rfl hi hf
  | print => exact bearsOut_of_taking hi rfl hf
  | stop => cases hf

/-! ### The fault of there being no instruction -/

/-- **The fault of there being no instruction** is true of the machine. The
number that it carries comes from the instruction pointer, or from the end of
the code, and is the limit of the memory either way. -/
theorem bearsOut_of_fetch (h : m.WellFormed) (hf : m.fetch = .error fault) :
    m.BearsOut fault := by
  have hip := h.ip_le
  have hsize : m.code.size = m.limits.memorySize := size_code h.memorySize_le
  rw [fetch_eq] at hf
  by_cases hend : m.limits.memorySize ≤ m.ip
  · simp only [if_pos hend, Except.error.injEq] at hf
    rw [← hf]
    exact ⟨by omega, .inl rfl⟩
  · rw [if_neg hend] at hf
    cases hd : m.code.decodeAt m.ip with
    | ok i => simp [hd] at hf
    | error e =>
        simp only [hd, Except.error.injEq] at hf
        rw [← hf]
        cases Listing.tail_of_decodeAt_eq_error hd (by omega) with
        | unknown hbyte hunknown => exact ⟨rfl, hbyte, hunknown⟩
        | truncated hbyte hlong =>
            rw [Code.length_toList, hsize] at hlong ⊢
            exact ⟨rfl, .inr ⟨by omega, _, hbyte, hlong⟩⟩

/-! ### Steps -/

/-- An instruction that is fetched stands at the instruction pointer. -/
lemma standsAt_of_fetch (h : m.WellFormed) (hf : m.fetch = .ok (i, next)) :
    i.StandsAt m.code.toList m.ip :=
  Code.encode_isPrefix_of_decodeAt (fetch_eq_ok h hf).1

/-- The fault of the next instruction is true of the machine. -/
lemma bearsOut_of_nextEffect (h : m.WellFormed) (hf : m.nextEffect = .error fault) :
    m.BearsOut fault := by
  rw [nextEffect] at hf
  cases hfetch : m.fetch with
  | error fault' =>
      simp only [hfetch, Except.error.injEq] at hf
      exact hf ▸ bearsOut_of_fetch h hfetch
  | ok found =>
      obtain ⟨i, next⟩ := found
      simp only [hfetch] at hf
      exact bearsOut_of_effect h (standsAt_of_fetch h hfetch) hf

/-- The fault of a sink that refuses the word that is printed is true of the
machine. -/
lemma bearsOut_outputRefused (h : m.WellFormed) {e : Effect} {v : Word}
    (he : m.nextEffect = .ok (some e)) (hv : e.printed? = some v) :
    m.BearsOut (.outputRefused m.ip) := by
  obtain ⟨i, next, hfetch, he⟩ := exists_of_nextEffect he
  obtain ⟨rfl, htop⟩ := eq_print_of_effect he hv
  have hdepth : 1 ≤ m.depth := List.length_pos_of_mem (List.mem_of_mem_head? htop)
  exact ⟨rfl, standsAt_of_fetch h hfetch, hdepth⟩

/-- What a fault says does not depend on the status. -/
lemma BearsOut.withStatus (h : m.BearsOut fault) (status : Status) :
    (m.withStatus status).BearsOut fault := by
  cases fault <;> exact h

/-- **Testimony in one step**: a step leaves a machine that bears out the fault
in its status, if there is one. -/
theorem bearsOut_step {σ : Type} [Sink σ] (h : m.WellFormed)
    (hm : ∀ fault, m.status = .faulted fault → m.BearsOut fault) (s : σ) :
    ∀ fault, (m.step s).machine.status = .faulted fault → (m.step s).machine.BearsOut fault := by
  intro fault hstatus
  by_cases hready : m.status = .ready
  · cases transition_step h hready s with
    | fault he hout =>
        rw [hout] at hstatus ⊢
        cases hstatus
        exact (bearsOut_of_nextEffect h he).withStatus _
    | stop _ hout =>
        rw [hout] at hstatus
        cases hstatus
    | proceed _ _ hout =>
        rw [hout] at hstatus
        exact absurd (hready.symm.trans hstatus) (by simp)
    | print _ _ _ hout =>
        rw [hout] at hstatus
        exact absurd (hready.symm.trans hstatus) (by simp)
    | refuse he hv _ hout =>
        rw [hout] at hstatus ⊢
        cases hstatus
        exact (bearsOut_outputRefused h he hv).withStatus _
  · rw [step_of_not_ready hready] at hstatus ⊢
    exact hm fault hstatus

variable {capacity limits : Limits} {program : Bytes}

/-- The memory of a machine holds, for life, the program with zeros behind it. -/
lemma Life.toList_code (h : Life capacity limits program m) :
    m.code.toList = (Reference.Environment.of limits program).memory := by
  obtain ⟨hfits, hprogram⟩ := h.fits
  rw [h.sameStorage.code_eq, Reference.toList_code_fresh (hfits .memory) hprogram]

/-- **Testimony**: whatever steps and runs a machine has been through, the fault
in its status is true of it: of its stack, its registers and its instruction
pointer as they are, of the program with zeros behind it, and of the limits. -/
theorem fault_is_true (h : Life capacity limits program m) (hstatus : m.status = .faulted fault) :
    fault.TrueOf limits
      (program.toList ++ List.replicate (limits.memorySize - program.size) 0) m := by
  let P (m : Machine) : Prop :=
    m.WellFormed ∧ ∀ fault, m.status = .faulted fault → m.BearsOut fault
  have hload : ∀ m, Machine.load capacity limits program = .ok m → P m := by
    intro m hm
    refine ⟨.of_load hm, fun fault hfault => ?_⟩
    rw [(load_eq_ok_iff.mp hm).2.2] at hfault
    cases hfault
  have hrestart : ∀ m, P m → P m.restart := fun m hm =>
    ⟨hm.1.restart, fun fault hfault => by cases hfault⟩
  have hlife : P m := h.induction hload hrestart fun m s hm =>
    ⟨hm.1.step s, bearsOut_step hm.1 hm.2 s⟩
  have htrue := hlife.2 fault hstatus
  rw [BearsOut, h.sameStorage.limits_eq, h.toList_code] at htrue
  exact htrue

/-- A second `LOAD r0` finds the stack full of what the first one has put
there. -/
theorem fault_is_true_of_second_load :
    let m := ((fresh ⟨8, 4, 16⟩ ⟨1, 1, 12⟩ #[1, 5, 0, 0, 0, 4, 0, 3, 0, 3, 0]).steps
      (Tape.blank 0) 4).machine
    m.status = .faulted (.stackOverflow 9 5) ∧
      Fault.TrueOf ⟨1, 1, 12⟩ [1, 5, 0, 0, 0, 4, 0, 3, 0, 3, 0, 0] m (.stackOverflow 9 5) := by
  intro m
  have hload : load ⟨8, 4, 16⟩ ⟨1, 1, 12⟩ #[1, 5, 0, 0, 0, 4, 0, 3, 0, 3, 0]
      = .ok (fresh ⟨8, 4, 16⟩ ⟨1, 1, 12⟩ #[1, 5, 0, 0, 0, 4, 0, 3, 0, 3, 0]) :=
    load_eq_ok_iff.mpr ⟨fun r => by cases r <;> decide, by decide, rfl⟩
  have hstatus : m.status = .faulted (.stackOverflow 9 5) := by decide +kernel
  exact ⟨hstatus, fault_is_true (.steps (.load hload) _ 4) hstatus⟩

end Machine

end Bytecode
