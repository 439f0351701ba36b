/-
Raising the limits of a machine.

* `Fault.resource?`: the resource that a fault asks more of than its limit
  gives, if it is a fault of that kind;
* `Relaxes`: what is come to under limits and under higher ones. It is the
  same, or it was a fault over a resource that there is more of now;
* `Machine.Widens`: a machine stands where another one stands, and none of
  its limits is lower;
* `Widens.nextEffect` and `Widens.step` (**one step under both limits**): a
  step comes to the same, or it was a fault over a limit that was raised;
* `raising_limits_is_conservative` (**raising limits is conservative**): all of
  this over any number of steps, and for a program that stops.
-/
import Mathlib
import Bytecode.Proofs.Lockstep
import Bytecode.Proofs.Simulation
import Bytecode.Proofs.Steps

namespace Bytecode

/-- The resource that a fault asks more of than its limit gives. -/
def Fault.resource? : Fault → Option Resource
  | .stackOverflow .. => some .stack
  | .invalidRegister .. => some .registers
  | .invalidTarget .. => some .memory
  | .undecodable (.pastEnd _) => some .memory
  | .undecodable (.unknownOpcode ..) => none
  | .stackUnderflow .. => none
  | .divisionByZero _ => none
  | .outputRefused _ => none

/-- What is come to under limits and under others: the same, or at first a
fault over a resource that there is more of under the others. -/
inductive Relaxes (limits limits' : Limits) {α : Type} (x x' : Except Fault α) : Prop
  | same (h : x' = x)
  | raised {fault : Fault} {r : Resource} (hfault : x = .error fault)
      (hr : fault.resource? = some r) (hlt : limits.get r < limits'.get r)

namespace Machine

/-- A machine stands where another one stands, with the same bytes of memory up
to the limit of that one, and none of its limits is lower. -/
structure Widens (m m' : Machine) : Prop where
  limits_le : ∀ r, m.limits.get r ≤ m'.limits.get r
  code_isPrefix : m.code.toList <+: m'.code.toList
  ip_eq : m'.ip = m.ip
  stack_eq : m'.stack = m.stack
  register_eq : ∀ k < m.limits.registerCount, m'.visibleRegisters[k]? = m.visibleRegisters[k]?
  status_eq : m'.status = m.status

variable {m m' : Machine}

/-! ### One instruction -/

/-- A push comes to the same, or the limit of the stack was raised. -/
lemma Widens.pushing (hw : Widens m m') (v : Word) (next : ℕ) :
    Relaxes m.limits m'.limits (m.pushing v next) (m'.pushing v next) := by
  have hle : m.limits.stackSize ≤ m'.limits.stackSize := hw.limits_le .stack
  rw [Machine.pushing, Machine.pushing, depth, depth, hw.stack_eq, hw.ip_eq]
  by_cases hd : m.stack.length < m.limits.stackSize
  · rw [if_pos hd, if_pos (hd.trans_le hle)]
    exact .same rfl
  · rw [if_neg hd]
    by_cases hd' : m.stack.length < m'.limits.stackSize
    · exact .raised rfl rfl ((Nat.le_of_not_lt hd).trans_lt hd')
    · rw [if_neg hd']
      exact .same rfl

/-- Both lack as many words. -/
lemma Widens.underflow_eq (hw : Widens m m') (op : Opcode) (offset needed : ℕ) :
    m'.underflow op offset needed = m.underflow op offset needed := by
  rw [underflow, underflow, depth, depth, hw.stack_eq]

/-- An operation on two words comes to the same: it takes room that is there. -/
lemma Widens.combining_eq (hw : Widens m m') (op : Arithmetic) (next : ℕ) :
    m'.combining op next = m.combining op next := by
  rw [combining, combining, hw.underflow_eq, hw.stack_eq, hw.ip_eq]

/-- A target is the same, or the limit of the memory was raised. -/
lemma Widens.destination (hw : Widens m m') (offset : ℕ) (target : UInt16) :
    Relaxes m.limits m'.limits (m.destination offset target) (m'.destination offset target) := by
  have hle : m.limits.memorySize ≤ m'.limits.memorySize := hw.limits_le .memory
  rw [Machine.destination, Machine.destination]
  by_cases ht : m.limits.memorySize ≤ target.toNat
  · rw [if_pos ht]
    by_cases ht' : m'.limits.memorySize ≤ target.toNat
    · rw [if_pos ht']
      exact .same rfl
    · exact .raised rfl rfl (ht.trans_lt (Nat.lt_of_not_le ht'))
  · rw [if_neg ht, if_neg (fun h => ht (hle.trans h))]
    exact .same rfl

/-- A conditional jump goes to the same offset, or the limit of the memory was
raised: the top is looked at once the target has been allowed. -/
lemma Widens.branch (hw : Widens m m') (op : Opcode) (offset : ℕ) (target : UInt16)
    (test : Word → Bool) (next : ℕ) :
    Relaxes m.limits m'.limits (m.branch op offset target test next)
      (m'.branch op offset target test next) := by
  have hpeek : m'.peek op offset = m.peek op offset := by
    rw [peek, peek, top?, top?, hw.underflow_eq, hw.stack_eq]
  rw [Machine.branch, Machine.branch, hpeek]
  cases hw.destination offset target with
  | same h =>
      rw [h]
      exact .same rfl
  | raised hfault hr hlt =>
      rw [hfault]
      exact .raised rfl hr hlt

/-- A jump comes to the same if it goes to the same offset. -/
lemma Widens.jumping (hw : Widens m m') {destination destination' : Except Fault ℕ}
    (h : Relaxes m.limits m'.limits destination destination') :
    Relaxes m.limits m'.limits (m.jumping destination) (m'.jumping destination') := by
  cases h with
  | same h =>
      rw [h]
      cases destination with
      | error fault => exact .same rfl
      | ok offset =>
          rw [Machine.jumping, Machine.jumping, hw.stack_eq]
          exact .same rfl
  | raised hfault hr hlt =>
      rw [hfault]
      exact .raised rfl hr hlt

/-- A register that is in view has the same value, or both lack it, or the limit
of the registers was raised. -/
lemma Widens.register? (h : m.WellFormed) (h' : m'.WellFormed) (hw : Widens m m') (r : UInt8) :
    m'.register? r = m.register? r ∨
      m.register? r = none ∧ m.limits.registerCount < m'.limits.registerCount := by
  by_cases hr : r.toNat < m.limits.registerCount
  · exact .inl (hw.register_eq r.toNat hr)
  · rw [register?_of_le h.registerCount_le (by omega)]
    by_cases hr' : r.toNat < m'.limits.registerCount
    · exact .inr ⟨rfl, by omega⟩
    · rw [register?_of_le h'.registerCount_le (by omega)]
      exact .inl rfl

/-- **One instruction under both limits**: it comes to the same, or it was a
fault over a limit that was raised. -/
theorem Widens.effect (h : m.WellFormed) (h' : m'.WellFormed) (hw : Widens m m')
    (i : Instruction) (next : ℕ) :
    Relaxes m.limits m'.limits (m.effect i next) (m'.effect i next) := by
  have hregisters : m.limits.registerCount ≤ m'.limits.registerCount := hw.limits_le .registers
  cases i with
  | nop =>
      rw [Machine.effect, Machine.effect, hw.stack_eq]
      exact .same rfl
  | push v => exact hw.pushing v next
  | pop =>
      rw [Machine.effect, Machine.effect, hw.stack_eq, hw.underflow_eq, hw.ip_eq]
      exact .same rfl
  | load r =>
      rw [Machine.effect, Machine.effect, hw.ip_eq]
      rcases hw.register? h h' r with heq | ⟨hnone, hlt⟩
      · rw [heq]
        cases m.register? r with
        | none => exact .same rfl
        | some v => exact hw.pushing v next
      · rw [hnone]
        exact .raised rfl rfl hlt
  | store r =>
      rw [Machine.effect, Machine.effect, hw.stack_eq, hw.underflow_eq, hw.ip_eq]
      by_cases hr : m.limits.registerCount ≤ r.toNat
      · rw [if_pos hr]
        by_cases hr' : m'.limits.registerCount ≤ r.toNat
        · rw [if_pos hr']
          exact .same rfl
        · exact .raised rfl rfl (hr.trans_lt (Nat.lt_of_not_le hr'))
      · rw [if_neg hr, if_neg (fun hle => hr (hregisters.trans hle))]
        exact .same rfl
  | jmp target =>
      rw [Machine.effect, Machine.effect, hw.ip_eq]
      exact hw.jumping (hw.destination m.ip target)
  | jz target =>
      rw [Machine.effect, Machine.effect, hw.ip_eq]
      exact hw.jumping (hw.branch .jz m.ip target (· == 0) next)
  | jnz target =>
      rw [Machine.effect, Machine.effect, hw.ip_eq]
      exact hw.jumping (hw.branch .jnz m.ip target (· != 0) next)
  | add => exact .same (hw.combining_eq .add next)
  | sub => exact .same (hw.combining_eq .sub next)
  | mul => exact .same (hw.combining_eq .mul next)
  | div => exact .same (hw.combining_eq .div next)
  | print =>
      rw [Machine.effect, Machine.effect, hw.stack_eq, hw.underflow_eq, hw.ip_eq]
      exact .same rfl
  | stop => exact .same rfl

/-- Fetching finds the same instruction, or the limit of the memory was
raised. -/
lemma Widens.fetch (h : m.WellFormed) (h' : m'.WellFormed) (hw : Widens m m') :
    Relaxes m.limits m'.limits m.fetch m'.fetch := by
  have hle : m.limits.memorySize ≤ m'.limits.memorySize := hw.limits_le .memory
  have hsize : m.code.size = m.limits.memorySize := size_code h.memorySize_le
  have hsize' : m'.code.size = m'.limits.memorySize := size_code h'.memorySize_le
  rw [fetch_eq, fetch_eq, hw.ip_eq]
  by_cases hip : m.limits.memorySize ≤ m.ip
  · rw [if_pos hip]
    by_cases hip' : m'.limits.memorySize ≤ m.ip
    · rw [if_pos hip']
      exact .same rfl
    · exact .raised rfl rfl (hip.trans_lt (Nat.lt_of_not_le hip'))
  · rw [if_neg hip, if_neg (fun h => hip (hle.trans h))]
    rcases Code.decodeAt_of_isPrefix hw.code_isPrefix (p := m.ip) (by omega) with heq | ⟨hend, hlt⟩
    · rw [heq]
      exact .same rfl
    · rw [hend]
      refine .raised rfl rfl ?_
      rwa [hsize, hsize'] at hlt

/-- The next instruction comes to the same under both limits, or it was a fault
over a limit that was raised. -/
lemma Widens.nextEffect (h : m.WellFormed) (h' : m'.WellFormed) (hw : Widens m m') :
    Relaxes m.limits m'.limits m.nextEffect m'.nextEffect := by
  rw [Machine.nextEffect, Machine.nextEffect]
  cases hw.fetch h h' with
  | raised hfault hr hlt =>
      rw [hfault]
      exact .raised rfl hr hlt
  | same heq =>
      rw [heq]
      cases m.fetch with
      | error fault => exact .same rfl
      | ok found => exact hw.effect h h' found.1 found.2

/-! ### One step -/

/-- The same move under both limits. -/
lemma Widens.moved (h : m.WellFormed) (h' : m'.WellFormed) (hw : Widens m m') (move : Move) :
    Widens (m.moved move) (m'.moved move) := by
  cases move with
  | settle status => exact { hw with status_eq := rfl }
  | proceed e =>
      refine { hw with ip_eq := rfl, stack_eq := rfl, register_eq := fun k hk => ?_ }
      have hk' : k < m'.limits.registerCount := hk.trans_le (hw.limits_le .registers)
      rw [Machine.moved, Machine.moved, Reference.getElem?_visibleRegisters_after h e hk,
        Reference.getElem?_visibleRegisters_after h' e hk', hw.register_eq k hk]

variable {σ : Type} [Sink σ]

/-- **One step under both limits**: it comes to the same, or it was a fault over
a limit that was raised. -/
theorem Widens.step (h : m.WellFormed) (h' : m'.WellFormed) (hw : Widens m m') (s : σ) :
    Outcome.Alike Widens Eq (m.step s) (m'.step s) ∨
      ∃ fault r, (m.step s).answer = .error fault ∧ fault.resource? = some r ∧
        m.limits.get r < m'.limits.get r := by
  -- a machine that is not ready answers for its status under all limits
  have hsame : (m.status = .ready → m'.nextEffect = m.nextEffect) →
      Outcome.Alike Widens Eq (m.step s) (m'.step s) := by
    intro hnext
    obtain ⟨answer, move, s', t', hout, hout', hsink⟩ :=
      exists_move_step h h' hw.status_eq hw.ip_eq hnext Sink.matches_eq (rfl : s = s)
    rw [hout, hout']
    exact ⟨rfl, hw.moved h h' move, hsink⟩
  by_cases hready : m.status = .ready
  · cases hw.nextEffect h h' with
    | same heq => exact .inl (hsame fun _ => heq)
    | raised hfault hr hlt =>
        refine .inr ⟨_, _, ?_, hr, hlt⟩
        rw [step_of_ready h hready, hfault]
        rfl
  · exact .inl (hsame fun h => absurd h hready)

/-! ### Runs of steps -/

variable {capacity capacity' limits limits' : Limits} {program : Bytes}

/-- The memory of a program under limits begins with its memory under lower
ones. -/
lemma memory_isPrefix {limits limits' : Limits} (hle : limits.memorySize ≤ limits'.memorySize)
    (program : Bytes) :
    (Reference.Environment.of limits program).memory
      <+: (Reference.Environment.of limits' program).memory := by
  refine (List.prefix_append_right_inj _).mpr ?_
  rw [List.prefix_replicate_iff]
  exact ⟨by simp; omega, by simp⟩

/-- Machines that have just loaded programs, the second one under limits that
are nowhere lower, and with a memory that begins like that of the first. -/
lemma widens_of_load {program' : Bytes} (hload : load capacity limits program = .ok m)
    (hload' : load capacity' limits' program' = .ok m')
    (hle : ∀ r, limits.get r ≤ limits'.get r)
    (hmemory : (Reference.Environment.of limits program).memory
      <+: (Reference.Environment.of limits' program').memory) : Widens m m' := by
  have hzero := @visibleRegisters_of_load _ _ _ _ hload
  have hzero' := @visibleRegisters_of_load _ _ _ _ hload'
  obtain ⟨hfits, hprogram, rfl⟩ := load_eq_ok_iff.mp hload
  obtain ⟨hfits', hprogram', rfl⟩ := load_eq_ok_iff.mp hload'
  refine ⟨hle, ?_, rfl, rfl, fun k hk => ?_, rfl⟩
  · rwa [Reference.toList_code_fresh (hfits .memory) hprogram,
      Reference.toList_code_fresh (hfits' .memory) hprogram']
  · rw [hzero hk, hzero' (hk.trans_le (hle .registers))]

/-- Several steps under both limits: as long as there is no fault under the
lower ones, the answers and the sinks are the same. -/
lemma Widens.steps (hload : load capacity limits program = .ok m)
    (hload' : load capacity' limits' program = .ok m') (hw : Widens m m') (s : σ) {n : ℕ}
    (hok : ∀ fault, .error fault ∉ (m.steps s n).answers) :
    (m'.steps s n).answers = (m.steps s n).answers ∧ (m'.steps s n).sink = (m.steps s n).sink ∧
      Widens (m.steps s n).machine (m'.steps s n).machine := by
  induction n with
  | zero => exact ⟨rfl, rfl, hw⟩
  | succ n ih =>
      rw [Machine.steps] at hok
      obtain ⟨hanswers, hsink, hwn⟩ :=
        ih fun fault hmem => hok fault (List.mem_append_left _ hmem)
      have h := (Life.steps (.load hload) s n).wellFormed
      have h' := (Life.steps (.load hload') s n).wellFormed
      rcases hwn.step h h' (m.steps s n).sink with halike | ⟨fault, r, hfault, -⟩
      · rw [Machine.steps, Machine.steps]
        dsimp only
        rw [hsink, hanswers, halike.answer_eq]
        exact ⟨rfl, halike.sink.symm, halike.machine⟩
      · refine absurd ?_ (hok fault)
        rw [hfault]
        exact List.mem_append_right _ (List.mem_singleton.mpr rfl)

/-- **Raising limits is conservative**: under limits that pass their checks,
none of them lower than the other, a program that fits the lower ones is loaded
under both. As long as its steps do not fault under the lower ones, they answer
the same under the higher ones, with the same sink, instruction pointer and
stack, and the same registers as far as the lower limit goes. If the step after
that faults under the lower limits, it faults alike under the higher ones,
unless the fault is over a resource whose limit was raised. A program that
stops under the lower limits stops under the higher ones, with the same sink,
stack and instruction pointer. -/
theorem raising_limits_is_conservative {capacity capacity' limits limits' : Limits}
    {program : Bytes} (hlimits : limits.check capacity = .ok ())
    (hlimits' : limits'.check capacity' = .ok ()) (hle : ∀ r, limits.get r ≤ limits'.get r)
    (hprogram : program.size ≤ limits.memorySize) :
    ∃ m m', load capacity limits program = .ok m ∧ load capacity' limits' program = .ok m' ∧
      ∀ {σ : Type} [Sink σ] (s : σ),
        (∀ n, (∀ fault, .error fault ∉ (m.steps s n).answers) →
          let out := m.steps s n
          let out' := m'.steps s n
          (out'.answers = out.answers ∧ out'.sink = out.sink ∧
            out'.machine.ip = out.machine.ip ∧ out'.machine.stack = out.machine.stack ∧
            ∀ k < limits.registerCount,
              out'.machine.visibleRegisters[k]? = out.machine.visibleRegisters[k]?) ∧
          ∀ fault, (out.machine.step out.sink).answer = .error fault →
            (out'.machine.step out'.sink).answer = .error fault ∨
              ∃ r, fault.resource? = some r ∧ limits.get r < limits'.get r) ∧
        ∀ out, m.Returns s out → out.answer = .ok () →
          ∃ out', m'.Returns s out' ∧ out'.answer = .ok () ∧ out'.sink = out.sink ∧
            out'.machine.stack = out.machine.stack ∧ out'.machine.ip = out.machine.ip := by
  have hload := load_eq_ok_iff.mpr ⟨Limits.check_eq_ok_iff.mp hlimits, hprogram, rfl⟩
  have hload' := load_eq_ok_iff.mpr
    ⟨Limits.check_eq_ok_iff.mp hlimits', hprogram.trans (hle .memory), rfl⟩
  have hw := widens_of_load hload hload' hle (memory_isPrefix (hle .memory) program)
  generalize fresh capacity limits program = m at hload hw ⊢
  generalize fresh capacity' limits' program = m' at hload' hw ⊢
  refine ⟨_, _, hload, hload', fun {σ} _ s => ⟨fun n hok => ?_, fun out hreturns hstop => ?_⟩⟩
  · intro out out'
    obtain ⟨hanswers, hsink, hwn⟩ := hw.steps hload hload' s hok
    have hlife := Life.steps (.load hload) s n
    have hlife' := Life.steps (.load hload') s n
    have hlimits : out.machine.limits = limits := hlife.sameStorage.limits_eq
    have hlimits' : out'.machine.limits = limits' := hlife'.sameStorage.limits_eq
    refine ⟨⟨hanswers, hsink, hwn.ip_eq, hwn.stack_eq, ?_⟩, fun fault hfault => ?_⟩
    · rw [← hlimits]
      exact hwn.register_eq
    · rcases hwn.step hlife.wellFormed hlife'.wellFormed out.sink with
        halike | ⟨fault', r, hfault', hr, hlt⟩
      · left
        rw [show out'.sink = out.sink from hsink, halike.answer_eq, hfault]
      · right
        obtain rfl : fault' = fault := Except.error.inj (hfault'.symm.trans hfault)
        rw [← hlimits, ← hlimits']
        exact ⟨r, hr, hlt⟩
  · obtain ⟨n, hends, hmachine, hsink⟩ := (returns_iff_of_load hload).mp hreturns
    rw [hstop] at hends
    have hstatus := hends.eq_stopped
    -- a fault among the answers would have been the status ever after
    have hok : ∀ fault, .error fault ∉ (m.steps s n).answers := by
      intro fault hmem
      rw [status_of_error_mem_answers hmem] at hstatus
      cases hstatus
    obtain ⟨-, hsink', hwn⟩ := hw.steps hload hload' s hok
    have hreturns' : m'.Returns s ⟨.ok (), (m'.steps s n).machine, (m'.steps s n).sink⟩ := by
      refine (returns_iff_of_load hload').mpr ⟨n, ?_, rfl, rfl⟩
      rw [hwn.status_eq]
      exact hends
    rw [hmachine, hsink]
    exact ⟨_, hreturns', rfl, hsink', hwn.stack_eq, hwn.ip_eq⟩

/-- `PUSH 1` and `PUSH 2` overflow a stack of one word. In a stack of two they
are followed by the `ADD`. -/
theorem raising_limits_is_conservative_past_overflow :
    ∃ m m', Machine.load ⟨8, 4, 16⟩ ⟨1, 1, 11⟩ #[1, 1, 0, 0, 0, 1, 2, 0, 0, 0, 8] = .ok m ∧
      Machine.load ⟨4, 4, 64⟩ ⟨2, 1, 64⟩ #[1, 1, 0, 0, 0, 1, 2, 0, 0, 0, 8] = .ok m' ∧
      (m.steps (Tape.blank 1) 2).answers = [.ok .ready, .error (.stackOverflow 5 2)] ∧
      (m'.steps (Tape.blank 1) 3).machine.stack = [3] ∧
      (m'.steps (Tape.blank 1) 1).machine.stack = (m.steps (Tape.blank 1) 1).machine.stack := by
  have hlimits : Limits.check ⟨1, 1, 11⟩ ⟨8, 4, 16⟩ = .ok () := by decide
  have hlimits' : Limits.check ⟨2, 1, 64⟩ ⟨4, 4, 64⟩ = .ok () := by decide
  obtain ⟨m, m', hload, hload', hsteps⟩ :=
    @raising_limits_is_conservative ⟨8, 4, 16⟩ ⟨4, 4, 64⟩ ⟨1, 1, 11⟩ ⟨2, 1, 64⟩
      #[1, 1, 0, 0, 0, 1, 2, 0, 0, 0, 8] hlimits hlimits' (fun r => by cases r <;> decide)
      (by decide)
  obtain ⟨-, -, rfl⟩ := Machine.load_eq_ok_iff.mp hload
  obtain ⟨-, -, rfl⟩ := Machine.load_eq_ok_iff.mp hload'
  have hready : ((Machine.fresh ⟨8, 4, 16⟩ ⟨1, 1, 11⟩
      #[1, 1, 0, 0, 0, 1, 2, 0, 0, 0, 8]).steps (Tape.blank 1) 1).answers = [.ok .ready] := by
    decide +kernel
  obtain ⟨⟨-, -, -, hstack, -⟩, -⟩ := (hsteps (Tape.blank 1)).1 1 (by simp [hready])
  exact ⟨_, _, hload, hload', by decide +kernel, by decide +kernel, hstack⟩

end Machine

end Bytecode
