/-
The machine against the reference interpreter.

* `Agrees`: a machine stands where a state of the reference stands;
* `fetch_eq_map`: both find the same instruction, or the same fault;
* `operate_eq_map` (**one row of the table after the other**): the rule of
  the reference is the effect of the machine, read with integers;
* `step_agrees`: a step answers the same on both sides, and agreement
  stays;
* `load_steps_agree` (**refinement**): a program that fits is loaded, and
  any number of steps of its machine agrees with the reference.
-/
import Mathlib
import Bytecode.Proofs.Life
import Bytecode.Proofs.Reference

namespace Bytecode.Reference

variable {c : Environment} {m : Machine} {st : State}

/-! ### Words as integers -/

/-- The bits of a word, read without a sign, wrap to it. -/
lemma wrap_toNat (v : Word) : wrap v.toUInt32.toNat = v.toInt := by
  rw [wrap, ← Int32.toInt_toBitVec, BitVec.toInt_eq_toNat_bmod]
  rfl

/-! ### Fetching -/

/-- The reference reads numbers as the machine does. -/
lemma ofDigits_eq_ofLittleEndian (bytes : List UInt8) :
    Nat.ofDigits 256 (bytes.map UInt8.toNat) = ofLittleEndian bytes := by
  induction bytes with
  | nil => rfl
  | cons b rest ih =>
      rw [List.map_cons, Nat.ofDigits_cons, ih, ofLittleEndian]

/-- The reference knows the opcodes and their operands. -/
lemma width_toNat (b : UInt8) :
    width b.toNat = (Opcode.ofByte? b).map Opcode.operandBytes := by
  cases ho : Opcode.ofByte? b with
  | some op =>
      rw [Opcode.ofByte?_eq_some_iff.mp ho]
      cases op <;> rfl
  | none =>
      obtain ⟨k, hk⟩ := Nat.exists_eq_add_of_le (Opcode.ofByte?_eq_none_iff.mp ho)
      rw [hk, Nat.add_comm]
      rfl

/-! ### Agreement -/

/-- A machine stands where a state of the reference stands. -/
structure Agrees (c : Environment) (m : Machine) (st : State) : Prop where
  memory_eq : m.code.toList = c.memory
  stackSize_eq : m.limits.stackSize = c.stackSize
  registerCount_eq : m.limits.registerCount = c.registerCount
  ip_eq : m.ip = st.ip
  stack_eq : m.stack.map Int32.toInt = st.stack
  register_eq : ∀ k < c.registerCount,
    m.visibleRegisters[k]?.map Int32.toInt = some (st.registers k)
  status_eq : m.status = st.status

/-- The memory of the reference is as long as the limit of the machine. -/
lemma Agrees.length_memory (ha : Agrees c m st) (h : m.WellFormed) :
    c.memory.length = m.limits.memorySize := by
  calc c.memory.length = m.code.toList.length := by rw [ha.memory_eq]
    _ = m.code.size := Code.length_toList _
    _ = m.limits.memorySize := Machine.size_code h.memorySize_le

/-- Both have as many words on the stack. -/
lemma Agrees.length_stack (ha : Agrees c m st) : st.stack.length = m.depth := by
  rw [← ha.stack_eq, List.length_map]
  rfl

/-- **Fetching**: both find the same instruction, or the same fault. -/
lemma fetch_eq_map (ha : Agrees c m st) (h : m.WellFormed) :
    c.fetch st.ip =
      m.fetch.map fun found => (found.1.opcode.byte.toNat, found.1.operand, found.2) := by
  have hlength := ha.length_memory h
  have hsize : m.code.size = m.limits.memorySize := Machine.size_code h.memorySize_le
  rw [Machine.fetch_eq, Environment.fetch, ← ha.ip_eq]
  by_cases hip : m.limits.memorySize ≤ m.ip
  · rw [if_pos hip, List.getElem?_eq_none (by omega)]
    rfl
  · have hlt : m.ip < c.memory.length := by omega
    have hbyte : m.code.byteAt m.ip = .ok c.memory[m.ip] := by
      rw [Code.byteAt_eq_ok_iff, ha.memory_eq, List.getElem?_eq_getElem hlt]
    rw [if_neg hip, List.getElem?_eq_getElem hlt, Code.decodeAt, hbyte]
    dsimp only
    rw [width_toNat]
    cases ho : Opcode.ofByte? c.memory[m.ip] with
    | none => rfl
    | some op =>
        have hop : c.memory[m.ip] = op.byte := Opcode.ofByte?_eq_some_iff.mp ho
        dsimp only [Option.map_some]
        by_cases hfit : m.ip + 1 + op.operandBytes ≤ c.memory.length
        · have hbytes : ((c.memory.drop (m.ip + 1)).take op.operandBytes).length
              = op.operandBytes := by
            rw [List.length_take, List.length_drop]
            omega
          have hn := ofLittleEndian_lt ((c.memory.drop (m.ip + 1)).take op.operandBytes)
          rw [hbytes] at hn
          rw [if_pos hfit, Code.operandAt_eq_ok (by omega), ha.memory_eq, Environment.immediate,
            ofDigits_eq_ofLittleEndian, hop]
          simp [Except.map, Instruction.operand_ofOperand hn, Instruction.size, Opcode.size,
            Nat.add_assoc]
        · rw [if_neg hfit, Code.operandAt, if_neg (by omega), Code.missing, hlength, hsize,
            max_eq_right (by omega)]
          rfl

/-! ### The table of operations -/

/-- An effect, read with integers. -/
def ruleOf : Option Effect → Rule
  | none => .stop
  | some e =>
    match e.deed with
    | .nothing => .go (e.stack.map Int32.toInt) e.ip
    | .store r v => .store r.toNat v.toInt (e.stack.map Int32.toInt) e.ip
    | .print v => .print v.toInt (e.stack.map Int32.toInt) e.ip

/-- A push has the same rule. -/
lemma push_eq_map (ha : Agrees c m st) (v : Word) (next : ℕ) :
    c.push st v.toInt next = (m.pushing v next).map ruleOf := by
  rw [Environment.push, Machine.pushing, ha.length_stack, ha.stackSize_eq, ← ha.ip_eq,
    ← ha.stack_eq]
  split_ifs with hd
  · rfl
  · rw [Int32.ofInt_toInt]
    rfl

/-- An operation on two words has the same rule. -/
lemma binary_eq_map (ha : Agrees c m st) (op : Arithmetic) {f : ℤ → ℤ → Except Fault ℤ}
    (hf : ∀ lower upper : Word, f lower.toInt upper.toInt =
      match op.result? lower upper with
      | some v => .ok v.toInt
      | none => .error (.divisionByZero st.ip)) (next : ℕ) :
    Environment.binary st op.opcode f next = (m.combining op next).map ruleOf := by
  rw [Environment.binary, Machine.combining, ← ha.stack_eq]
  rcases hs : m.stack with _ | ⟨upper, _ | ⟨lower, rest⟩⟩
  · simp [Machine.underflow, Machine.depth, hs, Except.map, ha.ip_eq]
  · simp [Machine.underflow, Machine.depth, hs, Except.map, ha.ip_eq]
  · rw [List.map_cons, List.map_cons]
    dsimp only
    rw [hf, ha.ip_eq]
    cases op.result? lower upper with
    | none => rfl
    | some v => rfl

/-- A register is there, or both have the same fault. -/
lemma withRegister_eq (ha : Agrees c m st) (r : UInt8) (rule : Except Fault Rule) :
    c.withRegister st r.toNat rule =
      if m.limits.registerCount ≤ r.toNat then .error (.invalidRegister m.ip r) else rule := by
  rw [Environment.withRegister, ← ha.registerCount_eq, ← ha.ip_eq, UInt8.ofNat_toNat]
  by_cases hr : m.limits.registerCount ≤ r.toNat
  · rw [if_neg (by omega), if_pos hr]
  · rw [if_pos (by omega), if_neg hr]

/-- A target lies in the memory, or both have the same fault. -/
lemma withTarget_eq (ha : Agrees c m st) (h : m.WellFormed) (target : UInt16)
    (rule : Except Fault Rule) :
    c.withTarget st target.toNat rule =
      match m.destination m.ip target with
      | .ok _ => rule
      | .error fault => .error fault := by
  rw [Environment.withTarget, ha.length_memory h, Machine.destination, ← ha.ip_eq,
    UInt16.ofNat_toNat]
  by_cases ht : m.limits.memorySize ≤ target.toNat
  · rw [if_neg (by omega), if_pos ht]
  · rw [if_pos (by omega), if_neg ht]

/-- The top is there, or both have the same fault. -/
lemma withTop_eq (ha : Agrees c m st) (op : Opcode) (rule : ℤ → List ℤ → Rule) :
    Environment.withTop st op rule =
      match m.stack with
      | [] => .error (m.underflow op m.ip 1)
      | v :: rest => .ok (rule v.toInt (rest.map Int32.toInt)) := by
  rw [Environment.withTop, ← ha.stack_eq, ← ha.ip_eq]
  cases hs : m.stack with
  | nil => simp [Machine.underflow, Machine.depth, hs]
  | cons v rest => rfl

/-- A conditional jump has the same rule, if both test the top for the
same. -/
lemma branch_eq_map (ha : Agrees c m st) (h : m.WellFormed) (op : Opcode) (target : UInt16)
    {p : ℤ → Prop} [DecidablePred p] {test : Word → Bool}
    (htest : ∀ v : Word, test v = true ↔ p v.toInt) (next : ℕ) :
    c.withTarget st target.toNat (Environment.withTop st op fun top _ =>
        .go st.stack (if p top then target.toNat else next))
      = (m.jumping (m.branch op m.ip target test next)).map ruleOf := by
  rw [withTarget_eq ha h, withTop_eq ha, Machine.branch, Machine.peek, Machine.top?]
  cases hd : m.destination m.ip target with
  | error fault => rfl
  | ok destination =>
      have hto : destination = target.toNat := by
        rw [Machine.destination] at hd
        split_ifs at hd
        exact (Except.ok.inj hd).symm
      cases hs : m.stack with
      | nil => rfl
      | cons v rest =>
          simp only [bind, Except.bind, List.head?_cons, htest, hto, Machine.jumping, pure,
            Except.pure, Except.map, ruleOf, ha.stack_eq]

/-- **The table of operations**: the rule of the reference is the effect of
the machine, with the same faults in the same order. -/
theorem operate_eq_map (ha : Agrees c m st) (h : m.WellFormed) (i : Instruction) (next : ℕ) :
    c.operate st i.opcode.byte.toNat i.operand next = (m.effect i next).map ruleOf := by
  cases i with
  | nop => exact congrArg (fun stack => Except.ok (Rule.go stack next)) ha.stack_eq.symm
  | push v =>
      have hpush := push_eq_map ha v next
      rw [← wrap_toNat] at hpush
      exact hpush
  | pop =>
      change Environment.withTop st .pop (fun _ rest => .go rest next) = _
      rw [withTop_eq ha, Machine.effect]
      cases m.stack with
      | nil => rfl
      | cons v rest => rfl
  | load r =>
      change c.withRegister st r.toNat (c.push st (st.registers r.toNat) next) = _
      rw [withRegister_eq ha, Machine.effect]
      by_cases hr : m.limits.registerCount ≤ r.toNat
      · rw [if_pos hr, Machine.register?_of_le h.registerCount_le hr]
        rfl
      · obtain ⟨v, hv, hvalue⟩ := Option.map_eq_some_iff.mp
          (ha.register_eq r.toNat (by rw [← ha.registerCount_eq]; omega))
        rw [if_neg hr, Machine.register?, hv, ← hvalue]
        exact push_eq_map ha v next
  | store r =>
      change c.withRegister st r.toNat
        (Environment.withTop st .store fun top rest => .store r.toNat top rest next) = _
      rw [withRegister_eq ha, withTop_eq ha, Machine.effect]
      split_ifs with hr
      · rfl
      · cases m.stack with
        | nil => rfl
        | cons v rest => rfl
  | jmp target =>
      change c.withTarget st target.toNat (.ok (.go st.stack target.toNat)) = _
      rw [withTarget_eq ha h, Machine.effect, Machine.destination]
      split_ifs with ht
      · rfl
      · rw [← ha.stack_eq]
        rfl
  | jz target =>
      refine branch_eq_map ha h .jz target (p := (· = 0)) (fun v => ?_) next
      rw [beq_iff_eq]
      exact Int32.toInt_inj.symm
  | jnz target =>
      refine branch_eq_map ha h .jnz target (p := (· ≠ 0)) (fun v => ?_) next
      rw [bne_iff_ne]
      exact not_congr Int32.toInt_inj.symm
  | add =>
      exact binary_eq_map ha .add
        (fun lower upper => congrArg Except.ok (Int32.toInt_add lower upper).symm) next
  | sub =>
      exact binary_eq_map ha .sub
        (fun lower upper => congrArg Except.ok (Int32.toInt_sub lower upper).symm) next
  | mul =>
      exact binary_eq_map ha .mul
        (fun lower upper => congrArg Except.ok (Int32.toInt_mul lower upper).symm) next
  | div =>
      refine binary_eq_map ha .div (fun lower upper => ?_) next
      have hzero : upper.toInt = 0 ↔ upper = 0 := Int32.toInt_inj (y := 0)
      rw [Arithmetic.result?]
      by_cases hu : upper = 0
      · rw [if_pos hu, if_pos (hzero.mpr hu)]
      · rw [if_neg hu, if_neg (fun h => hu (hzero.mp h))]
        exact congrArg Except.ok (Int32.toInt_div lower upper).symm
  | print =>
      change Environment.withTop st .print (fun top rest => .print top rest next) = _
      rw [withTop_eq ha, Machine.effect]
      cases m.stack with
      | nil => rfl
      | cons v rest => rfl
  | stop => rfl

/-- The rule of the next operation is the effect of the next
instruction. -/
lemma next_eq_map (ha : Agrees c m st) (h : m.WellFormed) :
    c.next st = m.nextEffect.map ruleOf := by
  rw [Environment.next, fetch_eq_map ha h, Machine.nextEffect]
  cases m.fetch with
  | error fault => rfl
  | ok found => exact operate_eq_map ha h found.1 found.2

/-! ### Steps -/

/-- Another status on both sides keeps the agreement. -/
lemma Agrees.withStatus (ha : Agrees c m st) (status : Status) :
    Agrees c (m.withStatus status) { st with status := status } :=
  { ha with status_eq := rfl }

/-- The registers in view after an effect. -/
lemma getElem?_visibleRegisters_after (h : m.WellFormed) (e : Effect) {k : ℕ}
    (hk : k < m.limits.registerCount) :
    (m.after e).visibleRegisters[k]? =
      match e.stored? with
      | none => m.visibleRegisters[k]?
      | some (r, v) => if r.toNat = k then some v else m.visibleRegisters[k]? := by
  have hle : (m.after e).limits.registerCount ≤ (m.after e).registers.size := by
    rw [(Machine.sameStorage_after m e).size_registers]
    exact h.registerCount_le
  have hsize : k < m.registers.size := lt_of_lt_of_le hk h.registerCount_le
  rw [Machine.getElem?_visibleRegisters hle hk,
    Machine.getElem?_visibleRegisters h.registerCount_le hk, Machine.after]
  cases e.stored? with
  | none => rfl
  | some stored =>
      dsimp only
      rw [Array.getElem?_setIfInBounds]
      split_ifs with hr hlt
      · rfl
      · omega
      · rfl

/-- The registers of the reference after an effect. -/
def registersAfter (e : Effect) (registers : ℕ → ℤ) : ℕ → ℤ :=
  match e.stored? with
  | none => registers
  | some (r, v) => Function.update registers r.toNat v.toInt

/-- The same effect on both sides keeps the agreement. -/
lemma Agrees.after (ha : Agrees c m st) (h : m.WellFormed) (e : Effect) (printed : List ℤ) :
    Agrees c (m.after e)
      ⟨e.ip, e.stack.map Int32.toInt, registersAfter e st.registers, printed, st.status⟩ where
  memory_eq := ha.memory_eq
  stackSize_eq := ha.stackSize_eq
  registerCount_eq := ha.registerCount_eq
  ip_eq := rfl
  stack_eq := rfl
  register_eq := by
    intro k hk
    rw [getElem?_visibleRegisters_after h e (by rw [ha.registerCount_eq]; exact hk),
      registersAfter]
    cases e.stored? with
    | none => exact ha.register_eq k hk
    | some stored =>
        obtain ⟨r, v⟩ := stored
        dsimp only
        by_cases hr : r.toNat = k
        · rw [if_pos hr, ← hr, Function.update_self]
          rfl
        · rw [if_neg hr, Function.update_of_ne (Ne.symm hr)]
          exact ha.register_eq k hk
  status_eq := ha.status_eq

variable {σ : Type} [Sink σ]

/-- An effect that prints nothing goes on on both sides. -/
lemma apply_ruleOf {e : Effect} (hprinted : e.printed? = none) (s : σ) :
    st.apply s (ruleOf (some e)) =
      ⟨.ok .ready, ⟨e.ip, e.stack.map Int32.toInt, registersAfter e st.registers, st.printed,
        st.status⟩, s⟩ := by
  obtain ⟨stack, ip, deed⟩ := e
  cases deed with
  | nothing => rfl
  | store r v => rfl
  | print v => cases hprinted

/-- An effect that prints a word asks the sink first on both sides. -/
lemma apply_ruleOf_print {e : Effect} {v : Word} (hprinted : e.printed? = some v) (s : σ) :
    st.apply s (ruleOf (some e)) =
      match Sink.print s v with
      | .ok s => ⟨.ok .ready, ⟨e.ip, e.stack.map Int32.toInt, registersAfter e st.registers,
          st.printed ++ [v.toInt], st.status⟩, s⟩
      | .error s => st.fail (.outputRefused st.ip) s := by
  obtain ⟨stack, ip, deed⟩ := e
  cases deed with
  | nothing => cases hprinted
  | store r w => cases hprinted
  | print w =>
      cases hprinted
      rw [ruleOf]
      dsimp only [State.apply]
      rw [Int32.ofInt_toInt]
      rfl

/-- What has been printed has been accepted by the sink, in order. If the
program has faulted over a word that was refused, that was the last one. -/
def Received (s₀ : σ) (st : State) (s : σ) : Prop :=
  ∃ (words : List Word) (accepted : σ), words.map Int32.toInt = st.printed ∧
    words.foldlM Sink.print s₀ = .ok accepted ∧
      (s = accepted ∨ st.status = .faulted (.outputRefused st.ip) ∧
        ∃ v, Sink.print accepted v = .error s)

/-- As long as the program goes on, every word has been accepted. -/
lemma Received.of_ready {s₀ s : σ} (hr : Received s₀ st s) (hready : st.status = .ready) :
    ∃ words : List Word, words.map Int32.toInt = st.printed ∧
      words.foldlM Sink.print s₀ = .ok s := by
  obtain ⟨words, accepted, hwords, haccepted, rfl | ⟨hstatus, -⟩⟩ := hr
  · exact ⟨words, hwords, haccepted⟩
  · rw [hready] at hstatus
    cases hstatus

/-- **One step** on both sides: the answers and the sinks are the same, the
agreement stays, and what is printed reaches the sink. -/
theorem step_agrees (ha : Agrees c m st) (h : m.WellFormed) {s₀ s : σ}
    (hr : Received s₀ st s) :
    (m.step s).answer = (c.step st s).answer ∧ (m.step s).sink = (c.step st s).sink ∧
      Agrees c (m.step s).machine (c.step st s).state ∧
        Received s₀ (c.step st s).state (c.step st s).sink := by
  have hstatus := ha.status_eq
  cases hst : st.status with
  | stopped =>
      rw [hst] at hstatus
      rw [Machine.step_of_not_ready (by simp [hstatus]), Environment.step, hst, hstatus]
      exact ⟨rfl, rfl, ha, hr⟩
  | faulted fault =>
      rw [hst] at hstatus
      rw [Machine.step_of_not_ready (by simp [hstatus]), Environment.step, hst, hstatus]
      exact ⟨rfl, rfl, ha, hr⟩
  | ready =>
      have hnext := next_eq_map ha h
      obtain ⟨words, hwords, haccepted⟩ := hr.of_ready hst
      rw [hst] at hstatus
      rw [Environment.step, hst]
      dsimp only
      cases Machine.transition_step h hstatus s with
      | fault he hout =>
          rw [hnext, he, hout]
          exact ⟨rfl, rfl, ha.withStatus _, words, s, hwords, haccepted, .inl rfl⟩
      | stop he hout =>
          rw [hnext, he, hout]
          exact ⟨rfl, rfl, ha.withStatus _, words, s, hwords, haccepted, .inl rfl⟩
      | @proceed e he hprinted hout =>
          rw [hnext, he, hout]
          dsimp only [Except.map]
          rw [apply_ruleOf hprinted]
          exact ⟨rfl, rfl, ha.after h e _, words, s, hwords, haccepted, .inl rfl⟩
      | @print e v s' he hprinted hsink hout =>
          rw [hnext, he, hout]
          dsimp only [Except.map]
          rw [apply_ruleOf_print hprinted, hsink]
          refine ⟨rfl, rfl, ha.after h e _, words ++ [v], s', ?_, ?_, .inl rfl⟩
          · rw [List.map_append, hwords]
            rfl
          · rw [List.foldlM_append, haccepted]
            simp [bind, Except.bind, pure, Except.pure, hsink]
      | @refuse e v s' he hprinted hsink hout =>
          rw [hnext, he, hout]
          dsimp only [Except.map]
          rw [apply_ruleOf_print hprinted, hsink, ha.ip_eq]
          exact ⟨rfl, rfl, ha.withStatus _, words, s, hwords, haccepted, .inr ⟨rfl, v, hsink⟩⟩

/-! ### Runs of steps -/

/-- The memory of a machine that has loaded a program, as far as the limit
goes. -/
lemma toList_code_fresh {capacity limits : Limits} {program : Bytes}
    (hfits : Limits.Fits limits capacity .memory) (hprogram : program.size ≤ limits.memorySize) :
    (Machine.fresh capacity limits program).code.toList
      = (Environment.of limits program).memory := by
  have hcap : limits.memorySize ≤ capacity.memorySize := hfits.2
  have hlength : program.toList.length = program.size := Array.length_toList
  calc (Machine.fresh capacity limits program).code.toList
      = (program ++ Array.replicate (capacity.memorySize - program.size) 0).toList.take
          limits.memorySize := by rw [Machine.code, Code.toList_upTo]; rfl
    _ = (program.toList ++ List.replicate (capacity.memorySize - program.size) 0).take
          limits.memorySize := by rw [Array.toList_append, Array.toList_replicate]
    _ = program.toList ++ List.replicate (limits.memorySize - program.size) 0 := by
        rw [List.take_append, List.take_of_length_le (by omega), List.take_replicate, hlength,
          min_eq_left (by omega)]

/-- A machine that has just loaded a program stands at its start. -/
lemma agrees_of_load {capacity limits : Limits} {program : Bytes} {m : Machine}
    (h : Machine.load capacity limits program = .ok m) :
    Agrees (Environment.of limits program) m .start := by
  have hzero := @Machine.visibleRegisters_of_load _ _ _ _ h
  obtain ⟨hfits, hprogram, rfl⟩ := Machine.load_eq_ok_iff.mp h
  refine ⟨toList_code_fresh (hfits .memory) hprogram, rfl, rfl, rfl, rfl, fun k hk => ?_, rfl⟩
  rw [hzero hk]
  rfl

/-- **Refinement**: under limits that pass their check, a program that fits
is loaded, and any number of steps of its machine, with any sink, answers
what the reference answers. Both then have the same instruction pointer,
stack, registers and status, and the sink has received what the reference
has printed. -/
theorem load_steps_agree {capacity limits : Limits} {program : Bytes}
    (hlimits : limits.check capacity = .ok ()) (hprogram : program.size ≤ limits.memorySize) :
    ∃ m, Machine.load capacity limits program = .ok m ∧
      ∀ {σ : Type} [Sink σ] (s : σ) (n : ℕ),
        let c := Environment.of limits program
        (m.steps s n).answers = (c.steps s n).answers ∧
          (m.steps s n).sink = (c.steps s n).sink ∧
            Agrees c (m.steps s n).machine (c.steps s n).state ∧
              Received s (c.steps s n).state (c.steps s n).sink := by
  have hload := Machine.load_eq_ok_iff.mpr
    ⟨Limits.check_eq_ok_iff.mp hlimits, hprogram, rfl⟩
  refine ⟨_, hload, ?_⟩
  intro σ _ s n c
  induction n with
  | zero => exact ⟨rfl, rfl, agrees_of_load hload, [], s, rfl, rfl, .inl rfl⟩
  | succ n ih =>
      obtain ⟨hanswers, hsink, ha, hr⟩ := ih
      -- the machine is well-formed after the steps taken so far
      have hw := (Machine.Life.steps (.load hload) s n).wellFormed
      obtain ⟨hanswer, hsink', ha', hr'⟩ := step_agrees ha hw hr
      rw [Machine.steps, Environment.steps]
      dsimp only
      rw [hsink, hanswers, hanswer]
      exact ⟨rfl, hsink', ha', hr'⟩

/-- `PUSH -2147483648`, `PUSH -1`, `DIV` and `PRINT`, and a step past the
end: the quotient wraps. -/
theorem load_steps_agree_past_end :
    ∃ m, Machine.load ⟨8, 4, 16⟩ ⟨2, 4, 12⟩ #[1, 0, 0, 0, 128, 1, 255, 255, 255, 255, 11, 12]
        = .ok m ∧
      (m.steps (Tape.blank 1) 5).answers =
        [.ok .ready, .ok .ready, .ok .ready, .ok .ready, .error (.undecodable (.pastEnd 12))] ∧
      (m.steps (Tape.blank 1) 5).sink.words = #[-2147483648] ∧
      (m.steps (Tape.blank 1) 5).machine.ip = 12 := by
  have hlimits : Limits.check ⟨2, 4, 12⟩ ⟨8, 4, 16⟩ = .ok () := by decide
  obtain ⟨m, hload, hsteps⟩ := @load_steps_agree ⟨8, 4, 16⟩ ⟨2, 4, 12⟩
    #[1, 0, 0, 0, 128, 1, 255, 255, 255, 255, 11, 12] hlimits (by decide)
  obtain ⟨hanswers, hsink, ha, -⟩ := hsteps (Tape.blank 1) 5
  refine ⟨m, hload, hanswers.trans (by decide +kernel), ?_, ha.ip_eq.trans (by decide +kernel)⟩
  rw [hsink]
  decide +kernel

end Bytecode.Reference
