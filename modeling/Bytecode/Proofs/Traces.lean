/-
What the log tells of a run.

* `Machine.announced?`: the event of the instruction that the next step executes, and
  `Outcome.closing`: that of the end of a run;
* `events_eq` (**the events of a step**): what is noted in a step, from its answer;
* `attempted?_eq_none_iff`: a step attempts no instruction exactly if its fault is that
  there is none to decode;
* `driveNoting_add`, `driveNoting_of_ends`: what is noted along steps that go on, and in
  the step that ends the program;
* `Machine.EndsAt`, `exists_driveNoting_of_drive` (**what is noted of a run**);
* `Journal.told`: what a journal has kept, as texts; `traceLine?`, `runLines` and
  `lastLine`: what it is told of a step, of a run and of its end;
* `trace_tells_every_step` (**the trace of a run**);
* `told_of_execute`: the log of the command.
-/
import Mathlib
import Bytecode.Command.Session
import Bytecode.Proofs.Chronicle
import Bytecode.Proofs.Logging
import Bytecode.Proofs.Prediction
import Bytecode.Proofs.Testimony

namespace Bytecode

/-- The event of the end of a run. -/
def Outcome.closing {σ : Type} (out : Outcome Unit σ) : Event :=
  match out.answer with
  | .ok () => .stopped out.machine.ip
  | .error fault => .faulted fault

namespace Machine

variable {σ : Type} {m : Machine} {s : σ} {i : Instruction}

/-! ### The events of a step -/

/-- The event of the instruction that the next step executes. -/
def announced? (m : Machine) (_ : σ) : Option Event :=
  m.attempted?.map fun i => .executing m.ip i m.depth

variable [Sink σ]

/-- **The events of a step**: the instruction that it executes, if it gets so far, and
then its fault, if it has one. -/
theorem events_eq (hready : m.status = .ready) :
    m.events s = (m.announced? s).toList ++
      match (m.step s).answer with
      | .ok _ => []
      | .error fault => [.faulted fault] := by
  rw [events, stepNoting, announced?, attempted?, hready]
  dsimp only
  rw [executeNext]
  cases hfetch : m.fetch with
  | error fault =>
      rw [step_of_fetch_error hready hfetch]
      rfl
  | ok found =>
      rw [step_of_fetch hready hfetch]
      dsimp only
      cases (execute m.ip found.1 found.2).run (m, s) <;> rfl

/-- A step that answers without a fault is noted by its instruction. -/
lemma events_of_ok (hready : m.status = .ready) {signal : Signal}
    (hanswer : (m.step s).answer = .ok signal) : m.events s = (m.announced? s).toList := by
  rw [events_eq hready, hanswer, List.append_nil]

/-- A step that faults is noted by its instruction, if there is one, and by its fault. -/
lemma events_of_error (hready : m.status = .ready) {fault : Fault}
    (hanswer : (m.step s).answer = .error fault) :
    m.events s = (m.announced? s).toList ++ [.faulted fault] := by
  rw [events_eq hready, hanswer]

/-! ### The instruction of a step -/

/-- An instruction that is attempted is executed. -/
lemma executes_of_attempted? (h : m.WellFormed) (hi : m.attempted? = some i) (s : σ) :
    m.Executes s i := by
  obtain ⟨hready, next, hfetch⟩ := attempted?_eq_some_iff.mp hi
  obtain ⟨-, rfl, -⟩ := fetch_eq_ok h hfetch
  exact step_of_fetch hready hfetch

/-- Where an instruction has been decoded there is no fault of decoding. -/
lemma not_bearsOut_undecodable (h : m.WellFormed) {next : ℕ} (hfetch : m.fetch = .ok (i, next))
    (error : DecodeError) : ¬ m.BearsOut (.undecodable error) := by
  have hbyte : m.code.toList[m.ip]? = some i.opcode.byte := (standsAt_of_fetch h hfetch).getElem?_eq
  obtain ⟨-, rfl, hend⟩ := fetch_eq_ok h hfetch
  have hsize : 0 < i.size := i.opcode.size_pos
  intro htrue
  cases error with
  | pastEnd n =>
      obtain ⟨rfl, hip | ⟨-, op, hop, hlong⟩⟩ := htrue
      · omega
      · rw [hbyte] at hop
        have hopcode : i.opcode = op := by
          rw [← Option.some_inj, ← Opcode.ofByte?_byte, Option.some.inj hop, Opcode.ofByte?_byte]
        rw [← hopcode] at hlong
        exact absurd hend (Nat.not_le.mpr hlong)
  | unknownOpcode offset byte =>
      obtain ⟨-, hbyte', hunknown⟩ := htrue
      rw [hbyte] at hbyte'
      cases hbyte'
      exact absurd hunknown (by cases i.opcode <;> decide)

/-- Where no instruction can be fetched there is none to decode. -/
lemma exists_undecodable_of_fetch {fault : Fault} (hfetch : m.fetch = .error fault) :
    ∃ error, fault = .undecodable error := by
  rw [fetch_eq] at hfetch
  split_ifs at hfetch
  · exact ⟨_, (Except.error.inj hfetch).symm⟩
  · cases hd : m.code.decodeAt m.ip with
    | ok i => simp [hd] at hfetch
    | error error =>
        rw [hd] at hfetch
        exact ⟨error, (Except.error.inj hfetch).symm⟩

/-- **Where no instruction is attempted**: a step of a machine that is ready attempts
none exactly if its fault is that there is none to decode. -/
theorem attempted?_eq_none_iff (h : m.WellFormed) (hready : m.status = .ready) (s : σ) :
    m.attempted? = none ↔ ∃ error, (m.step s).answer = .error (.undecodable error) := by
  constructor
  · intro hnone
    rw [attempted?, hready] at hnone
    cases hfetch : m.fetch with
    | ok found => simp [hfetch] at hnone
    | error fault =>
        have hnext : m.nextEffect = .error fault := by rw [nextEffect, hfetch]
        obtain ⟨error, rfl⟩ := exists_undecodable_of_fetch hfetch
        refine ⟨error, ?_⟩
        rw [step_of_ready h hready, hnext]
        rfl
  · rintro ⟨error, hanswer⟩
    cases hi : m.attempted? with
    | none => rfl
    | some i =>
        obtain ⟨-, next, hfetch⟩ := attempted?_eq_some_iff.mp hi
        have hdecoded := not_bearsOut_undecodable h hfetch error
        cases transition_step h hready s with
        | fault he hout =>
            rw [hout] at hanswer
            cases hanswer
            exact absurd (bearsOut_of_nextEffect h he) hdecoded
        | stop _ hout =>
            rw [hout] at hanswer
            cases hanswer
        | proceed _ _ hout =>
            rw [hout] at hanswer
            cases hanswer
        | print _ _ _ hout =>
            rw [hout] at hanswer
            cases hanswer
        | refuse _ _ _ hout =>
            rw [hout] at hanswer
            cases hanswer

/-- A step that goes on has attempted an instruction. -/
lemma exists_attempted?_of_answer (h : m.WellFormed) (hanswer : (m.step s).answer = .ok .ready) :
    ∃ i, m.attempted? = some i := by
  obtain ⟨e, he, -⟩ := exists_after_of_answer h hanswer
  obtain ⟨i, next, hfetch, -⟩ := exists_of_nextEffect he
  exact ⟨i, attempted?_eq_some_iff.mpr ⟨ready_of_answer hanswer, next, hfetch⟩⟩

/-! ### What is noted of a run -/

variable {L : Type} {note : L → Event → L} {n : ℕ}

/-- **What is noted along steps that go on**: their instructions, one after the other. -/
theorem driveNoting_add (hready : m.StaysReady s n) (fuel : ℕ) (log : L) :
    m.driveNoting note (n + fuel) s log =
      (m.steps s n).machine.driveNoting note fuel (m.steps s n).sink
        ((m.along announced? s n).foldl note log) := by
  induction n generalizing fuel with
  | zero =>
      rw [Nat.zero_add]
      rfl
  | succ n ih =>
      obtain ⟨hbefore, hanswer⟩ := staysReady_succ_iff.mp hready
      rw [Nat.add_assoc, Nat.add_comm 1, ih hbefore, driveNoting_succ, hanswer]
      dsimp only
      rw [events_of_ok (ready_of_answer hanswer) hanswer, along_succ, List.foldl_append]
      rfl

/-- **What is noted in the step that ends the program**: its instruction, if there is
one, and the end. -/
theorem driveNoting_of_ends (hready : m.status = .ready) {answer : Except Fault Unit}
    (hends : Ends (m.step s).answer answer) (fuel : ℕ) (log : L) :
    let out : Outcome Unit σ := ⟨answer, (m.step s).machine, (m.step s).sink⟩
    m.driveNoting note (fuel + 1) s log =
      some (out, ((m.announced? s).toList ++ [out.closing]).foldl note log) := by
  intro out
  rw [driveNoting_succ]
  cases hanswer : (m.step s).answer with
  | error fault =>
      rw [hanswer] at hends
      cases hends
      dsimp only
      rw [events_of_error hready hanswer]
      rfl
  | ok signal =>
      rw [hanswer] at hends
      cases hends
      dsimp only
      rw [events_of_ok hready hanswer, List.foldl_append]
      rfl

/-- A run has come to an end in some step, and those before it have gone on. -/
structure EndsAt (m : Machine) (s : σ) (n : ℕ) (out : Outcome Unit σ) : Prop where
  staysReady : m.StaysReady s n
  ends : Ends ((m.steps s n).machine.step (m.steps s n).sink).answer out.answer
  machine_eq : out.machine = (m.steps s (n + 1)).machine
  sink_eq : out.sink = (m.steps s (n + 1)).sink

/-- **What is noted of a run**: the instructions of its steps, one after the other, and
then its end. -/
theorem exists_driveNoting_of_drive (hready : m.status = .ready) {fuel : ℕ}
    {out : Outcome Unit σ} (hdrive : m.drive fuel s = some out) :
    ∃ n, m.EndsAt s n out ∧ ∀ {L : Type} (note : L → Event → L) (log : L),
      m.driveNoting note fuel s log =
        some (out, (m.along announced? s (n + 1) ++ [out.closing]).foldl note log) := by
  -- steps that all go on would have used up the fuel
  have hnot : ¬ m.StaysReady s fuel := by
    intro hstays
    have hnone := driveNoting_fst (fun (log : Unit) _ => log) fuel m s ()
    rw [← Nat.add_zero fuel, driveNoting_add hstays 0 (), Nat.add_zero, hdrive] at hnone
    cases hnone
  obtain ⟨n, hn, hstays, answer, hends⟩ := exists_ends_of_not_staysReady hnot
  obtain ⟨rest, rfl⟩ : ∃ rest, fuel = n + (rest + 1) := ⟨fuel - n - 1, by omega⟩
  let ending : Outcome Unit σ := ⟨answer, (m.steps s (n + 1)).machine, (m.steps s (n + 1)).sink⟩
  have hnoted : ∀ {L : Type} (note : L → Event → L) (log : L),
      m.driveNoting note (n + (rest + 1)) s log =
        some (ending, (m.along announced? s (n + 1) ++ [ending.closing]).foldl note log) := by
    intro L note log
    rw [driveNoting_add hstays, driveNoting_of_ends (hstays.status hready) hends,
      ← List.foldl_append, ← List.append_assoc, ← along_succ]
    rfl
  have hout : ending = out := by
    have hfst := driveNoting_fst (fun (log : Unit) _ => log) (n + (rest + 1)) m s ()
    rw [hnoted, hdrive] at hfst
    exact Option.some.inj hfst
  rw [← hout]
  exact ⟨n, ⟨hstays, hends, rfl, rfl⟩, hnoted⟩

end Machine

namespace Command

/-! ### Lines -/

/-- A record as it is told: how grave it is, and its text. -/
def Record.told (r : Record) : Severity × String :=
  (r.severity, r.text)

/-- What a journal has kept, in order. -/
def Journal.told (j : Journal) : List (Severity × String) :=
  j.records.map Record.told

section Journals

variable {j : Journal}

/-- A journal of the largest verbosity keeps every record. -/
lemma Journal.told_note (hj : j.verbosity = .upTo .trace) (r : Record) :
    (j.note r).verbosity = .upTo .trace ∧ (j.note r).told = j.told ++ [r.told] := by
  rw [note, if_pos (by rw [hj]; exact Verbosity.admits_trace _)]
  exact ⟨hj, by simp [told, records]⟩

/-- A journal of the largest verbosity keeps every event, in order. -/
lemma Journal.told_foldl_noteEvent (hj : j.verbosity = .upTo .trace) (events : List Event) :
    (events.foldl noteEvent j).told = j.told ++ events.map fun e => (Record.event e).told := by
  induction events generalizing j with
  | nil => simp
  | cons e rest ih =>
      obtain ⟨hverbosity, htold⟩ := told_note hj (.event e)
      rw [List.foldl_cons, noteEvent, ih hverbosity, htold]
      simp

end Journals

section Lines

variable {σ : Type} {m : Machine} {s : σ} {out : Outcome Unit σ} {n : ℕ}

/-- The line of the next step in the trace: the offset in at least five digits, the
instruction that is executed, and the number of words on the stack before it. -/
def traceLine? (m : Machine) (_ : σ) : Option (Severity × String) :=
  m.attempted?.map fun i =>
    (.trace, Text.paddedDecimal 5 m.ip ++ ": " ++ i.text ++ " (sp " ++ Text.decimal m.depth ++ ")")

/-- The line of the end of a run. -/
def lastLine (out : Outcome Unit σ) : Severity × String :=
  match out.answer with
  | .ok () => (.debug, "run: stopped at offset " ++ Text.decimal out.machine.ip)
  | .error fault => (.debug, "fault: " ++ fault.message)

/-- The end of a run is told in its last line. -/
lemma told_closing (out : Outcome Unit σ) : (Record.event out.closing).told = lastLine out := by
  rw [lastLine, Outcome.closing]
  cases out.answer <;> rfl

variable [Sink σ]

/-- The lines of a run by the time that it has taken so many steps. -/
def runLines (m : Machine) (s : σ) (n : ℕ) : List (Severity × String) :=
  (.debug, "run: start") :: m.restart.along traceLine? s n

/-- The instructions of the steps are told in the lines of the trace. -/
lemma map_along_announced? (m : Machine) (s : σ) (n : ℕ) :
    (m.along Machine.announced? s n).map (fun e => (Record.event e).told) =
      m.along traceLine? s n := by
  rw [Machine.along, Machine.along, List.map_filterMap]
  refine List.filterMap_congr fun k _ => ?_
  rw [Machine.announced?, traceLine?, Option.map_map]
  rfl

/-- The lines of a trace are all of one severity. -/
lemma severity_of_mem_along {line : Severity × String}
    (hline : line ∈ m.along traceLine? s n) : line.1 = .trace := by
  obtain ⟨k, -, hk⟩ := List.mem_filterMap.mp hline
  obtain ⟨i, -, rfl⟩ := Option.map_eq_some_iff.mp hk
  rfl

/-- A line that is graver than the trace is the first one or the last one. -/
lemma mem_runLines_iff {text : String} :
    (Severity.debug, text) ∈ runLines m s n ++ [lastLine out] ↔
      text = "run: start" ∨ (Severity.debug, text) = lastLine out := by
  have htrace : (Severity.debug, text) ∉ m.restart.along traceLine? s n := fun hline => by
    cases severity_of_mem_along hline
  simp [runLines, htrace]

/-- A run is told to have stopped exactly if it has, and where it has. -/
lemma stopped_mem_runLines_iff {offset : ℕ} :
    (.debug, "run: stopped at offset " ++ Text.decimal offset) ∈ runLines m s n ++ [lastLine out] ↔
      out.answer = .ok () ∧ offset = out.machine.ip := by
  have hstart : "run: stopped at offset " ++ Text.decimal offset ≠ "run: start" := fun h => by
    simpa using congrArg String.toList h
  rw [mem_runLines_iff, or_iff_right hstart, lastLine]
  cases out.answer with
  | ok u =>
      simp [String.append_right_inj, Text.decimal_injective.eq_iff]
  | error fault =>
      refine iff_of_false (fun h => ?_) (by simp)
      simpa using congrArg String.toList (congrArg Prod.snd h)

/-- A run is told to have faulted exactly if it has, with the message of its fault. -/
lemma fault_mem_runLines_iff {text : String} :
    (.debug, "fault: " ++ text) ∈ runLines m s n ++ [lastLine out] ↔
      ∃ fault, out.answer = .error fault ∧ text = fault.message := by
  have hstart : "fault: " ++ text ≠ "run: start" := fun h => by
    simpa using congrArg String.toList h
  rw [mem_runLines_iff, or_iff_right hstart, lastLine]
  cases out.answer with
  | ok u =>
      refine iff_of_false (fun h => ?_) (by simp)
      simpa using congrArg String.toList (congrArg Prod.snd h)
  | error fault => simp [String.append_right_inj]

end Lines

/-! ### Runs -/

section Runs

variable {σ : Type} [Sink σ] {m : Machine} {s : σ} {out : Outcome Unit σ} {n fuel : ℕ} {j : Journal}

/-- **What is told of a run in progress**: its start and its steps. The journal that has
kept them is the one that the rest of the run goes on with. -/
theorem exists_told_of_staysReady (hj : j.verbosity = .upTo .trace)
    (hstays : m.restart.StaysReady s n) :
    ∃ j', j'.told = j.told ++ runLines m s n ∧ ∀ fuel,
      m.runNoting Journal.noteEvent (n + fuel) s j =
        (m.restart.steps s n).machine.driveNoting Journal.noteEvent fuel
          (m.restart.steps s n).sink j' := by
  let events : List Event := .started :: m.restart.along Machine.announced? s n
  refine ⟨events.foldl Journal.noteEvent j, ?_, fun fuel => Machine.driveNoting_add hstays fuel _⟩
  rw [Journal.told_foldl_noteEvent hj, List.map_cons, map_along_announced?]
  rfl

/-- **What is told of a run that ends**: its start, its steps and its end. -/
theorem exists_told_of_run (hj : j.verbosity = .upTo .trace) (hrun : m.run fuel s = some out) :
    ∃ n j', m.restart.EndsAt s n out ∧
      m.runNoting Journal.noteEvent fuel s j = some (out, j') ∧
      j'.told = j.told ++ (runLines m s (n + 1) ++ [lastLine out]) := by
  obtain ⟨n, hends, hnoted⟩ := Machine.exists_driveNoting_of_drive rfl hrun
  let events : List Event :=
    .started :: (m.restart.along Machine.announced? s (n + 1) ++ [out.closing])
  refine ⟨n, events.foldl Journal.noteEvent j, hends, hnoted _ _, ?_⟩
  rw [Journal.told_foldl_noteEvent hj, List.map_cons, List.map_append, map_along_announced?,
    List.map_singleton, told_closing]
  rfl

/-- While steps go on each of them has its line in the trace. -/
lemma length_runLines (h : m.WellFormed) (hstays : m.restart.StaysReady s n) :
    (runLines m s n).length = n + 1 := by
  rw [runLines, List.length_cons, Nat.add_left_inj]
  induction n with
  | zero => rfl
  | succ n ih =>
      obtain ⟨hbefore, hanswer⟩ := Machine.staysReady_succ_iff.mp hstays
      obtain ⟨i, hi⟩ := Machine.exists_attempted?_of_answer (h.restart.steps s n) hanswer
      rw [Machine.along_succ, List.length_append, ih hbefore, traceLine?, hi]
      rfl

variable {capacity limits : Limits} {program : Bytes}

/-- **The trace of a run**, at the largest verbosity, whatever the machine has been
through. Its start is told first. While its steps go on, each of them has told one line:
the offset in at least five digits, the instruction, and the number of words on the stack
before it; and the rest of the run goes on with the journal that has kept these lines. A
step tells no line exactly if its fault is that there is none to decode, and the
instruction of the line is the one that is executed. A run that ends has told its steps up
to the one that ends the program, and behind them where it has stopped, exactly if it has,
or the message of its fault, exactly if there is one. -/
theorem trace_tells_every_step (h : Machine.Life capacity limits program m) (s : σ)
    (hj : j.verbosity = .upTo .trace) :
    let now k := m.restart.steps s k
    (∀ n, m.restart.StaysReady s n →
      ((now n).machine.attempted? = none ↔
        ∃ error, ((now n).machine.step (now n).sink).answer = .error (.undecodable error)) ∧
      (∀ i, (now n).machine.attempted? = some i → (now n).machine.Executes (now n).sink i) ∧
      (runLines m s n).length = n + 1 ∧
      ∃ j', j'.told = j.told ++ runLines m s n ∧ ∀ fuel,
        m.runNoting Journal.noteEvent (n + fuel) s j =
          (now n).machine.driveNoting Journal.noteEvent fuel (now n).sink j') ∧
    ∀ fuel out, m.run fuel s = some out →
      ∃ n lines j', m.restart.EndsAt s n out ∧ lines = runLines m s (n + 1) ++ [lastLine out] ∧
        m.runNoting Journal.noteEvent fuel s j = some (out, j') ∧ j'.told = j.told ++ lines ∧
        (∀ offset, (.debug, "run: stopped at offset " ++ Text.decimal offset) ∈ lines ↔
          out.answer = .ok () ∧ offset = out.machine.ip) ∧
        ∀ text, (.debug, "fault: " ++ text) ∈ lines ↔
          ∃ fault, out.answer = .error fault ∧ text = fault.message := by
  intro now
  refine ⟨fun n hstays => ?_, fun fuel out hrun => ?_⟩
  · have hready : (now n).machine.status = .ready := hstays.status rfl
    have hnow : (now n).machine.WellFormed := h.wellFormed.restart.steps s n
    exact ⟨Machine.attempted?_eq_none_iff hnow hready _,
      fun i hi => Machine.executes_of_attempted? hnow hi _,
      length_runLines h.wellFormed hstays, exists_told_of_staysReady hj hstays⟩
  · obtain ⟨n, j', hends, hnoted, htold⟩ := exists_told_of_run hj hrun
    exact ⟨n, _, j', hends, rfl, hnoted, htold, fun _ => stopped_mem_runLines_iff,
      fun _ => fault_mem_runLines_iff⟩

/-- **The log of the command** at the largest verbosity: the file that was read, the
program that was loaded, and the trace of its run. -/
theorem told_of_execute {host : Host} {a : Arguments} (hlevel : a.verbosity = .upTo .trace)
    (hrun : a.listing = false) (hread : host.read a.program = .ok program)
    (hload : Machine.load .standard a.limits program = .ok m) {e : Ending}
    (he : execute fuel host a = some e) :
    let s := Printer.onto (.blank host.device)
    ∃ n out, m.restart.EndsAt s n out ∧ e.journal.told =
      [(Record.read program.size a.program).told, (Record.event m.loadEvent).told] ++
        (runLines m s (n + 1) ++ [lastLine out]) := by
  intro s
  have hcheck : a.limits.check .standard = .ok () :=
    Limits.check_eq_ok_iff.mpr (Machine.load_eq_ok_iff.mp hload).1
  let j := (Journal.blank a.verbosity).note (.read program.size a.program)
  obtain ⟨hread', htold⟩ : j.verbosity = .upTo .trace ∧ j.told = _ :=
    Journal.told_note hlevel (.read program.size a.program)
  obtain ⟨hload', htold'⟩ := Journal.told_note hread' (.event m.loadEvent)
  rw [execute, hcheck, hread] at he
  dsimp only at he
  rw [hrun, if_neg Bool.false_ne_true, play, hload] at he
  dsimp only at he
  cases hnoted : m.runNoting Journal.noteEvent fuel s (j.noteEvent m.loadEvent) with
  | none =>
      rw [hnoted] at he
      cases he
  | some found =>
      obtain ⟨out, j'⟩ := found
      rw [hnoted] at he
      cases he
      have hout : m.run fuel s = some out := by
        rw [← Machine.runNoting_fst Journal.noteEvent fuel m s (j.noteEvent m.loadEvent), hnoted]
        rfl
      obtain ⟨n, j'', hends, hnoted', htold''⟩ := exists_told_of_run hload' hout
      cases hnoted.symm.trans hnoted'
      refine ⟨n, out, hends, ?_⟩
      rw [htold'', htold', htold]
      rfl

/-- A `POP` too many is told before its fault, and a byte that is no opcode is not. -/
theorem trace_tells_every_step_up_to_fault :
    let m last := Machine.fresh ⟨2, 1, 7⟩ ⟨2, 1, 7⟩ #[1, 7, 0, 0, 0, 12, last]
    (∃ n out, (m 2).restart.EndsAt Roll.blank n out ∧
      runLines (m 2) Roll.blank (n + 1) ++ [lastLine out] =
        [(.debug, "run: start"), (.trace, "00000: PUSH 7 (sp 0)"), (.trace, "00005: PRINT (sp 1)"),
          (.trace, "00006: POP (sp 0)"),
          (.debug, "fault: POP at offset 6 needs 1 operand(s) on the stack, found 0")]) ∧
    ∃ n out, (m 14).restart.EndsAt Roll.blank n out ∧
      runLines (m 14) Roll.blank (n + 1) ++ [lastLine out] =
        [(.debug, "run: start"), (.trace, "00000: PUSH 7 (sp 0)"), (.trace, "00005: PRINT (sp 1)"),
          (.debug, "fault: invalid instruction 0x0e at offset 6")] := by
  intro m
  have htells : ∀ last lines,
      ((m last).runNoting Journal.noteEvent 5 Roll.blank (.blank (.upTo .trace))).map (·.2.told)
        = some lines →
      ∃ n out, (m last).restart.EndsAt Roll.blank n out ∧
        runLines (m last) Roll.blank (n + 1) ++ [lastLine out] = lines := by
    intro last lines hmap
    have hload : Machine.load ⟨2, 1, 7⟩ ⟨2, 1, 7⟩ #[1, 7, 0, 0, 0, 12, last] = .ok (m last) :=
      Machine.load_eq_ok_iff.mpr ⟨fun r => by cases r <;> decide, by simp, rfl⟩
    obtain ⟨-, hruns⟩ :=
      trace_tells_every_step (.load hload) Roll.blank (j := .blank (.upTo .trace)) rfl
    obtain ⟨⟨out, j⟩, hnoted, rfl⟩ := Option.map_eq_some_iff.mp hmap
    have hrun : (m last).run 5 Roll.blank = some out := by
      rw [← Machine.runNoting_fst Journal.noteEvent 5 _ _ (.blank (.upTo .trace)), hnoted]
      rfl
    obtain ⟨n, _, j', hends, rfl, hnoted', htold, -⟩ := hruns 5 out hrun
    cases hnoted.symm.trans hnoted'
    exact ⟨n, out, hends, htold.symm⟩
  exact ⟨htells 2 _ (by decide +kernel), htells 14 _ (by decide +kernel)⟩

end Runs

end Command

end Bytecode
