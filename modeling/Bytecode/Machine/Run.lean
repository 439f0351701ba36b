/-
Steps and runs of a machine, and what is noted on the way.

Whoever observes a machine keeps a log, and each event is noted in it as
it happens.

* `Machine.stepNoting`: executes the next instruction of a machine that
  is ready, which is noted once it is fetched, and its fault, if it has
  one. A machine that has stopped or faulted answers the same again, and
  nothing is noted;
* `Machine.runNoting`: starts at offset zero with an empty stack and
  steps until the program stops or faults. The registers keep their
  values. A program that does neither has no answer, so the number of
  steps is bounded, and a run that would take more of them gives none;
* `Machine.step`, `Machine.drive`, `Machine.run`: the same if nobody
  keeps a log;
* `Machine.events`: what is noted in a step. The step is the same
  whatever log is kept of it (`stepNoting_eq`), and so is the run
  (`runNoting_fst`).
-/
import Bytecode.Machine.Event
import Bytecode.Machine.Execute

namespace Bytecode

/-- The status that a signal leaves a machine in. -/
def Signal.status : Signal → Status
  | ready => .ready
  | stopped => .stopped

/-- The answer of a step or a run, with the machine and the sink after
it. -/
structure Outcome (α σ : Type) where
  answer : Except Fault α
  machine : Machine
  sink : σ

namespace Machine

variable {σ : Type} {L : Type}

/-- The machine with another status. -/
def withStatus (m : Machine) (status : Status) : Machine :=
  { m with status }

/-- What an instruction has come to, with the status set to it. -/
def settle : EStateM.Result Fault (Machine × σ) Signal → Outcome Signal σ
  | .ok signal (m, s) => ⟨.ok signal, m.withStatus signal.status, s⟩
  | .error fault (m, s) => ⟨.error fault, m.withStatus (.faulted fault), s⟩

/-- Notes the fault of an instruction, if it has come to one. -/
def noteFault (note : L → Event → L) (log : L) :
    EStateM.Result Fault (Machine × σ) Signal → L
  | .ok _ _ => log
  | .error fault _ => note log (.faulted fault)

variable [Sink σ]

/-! ### Observed by a log -/

/-- Fetches the next instruction, notes it and executes it. -/
def executeNext (note : L → Event → L) (m : Machine) (s : σ) (log : L) :
    EStateM.Result Fault (Machine × σ) Signal × L :=
  match m.fetch with
  | .error fault => (.error fault (m, s), log)
  | .ok (i, next) =>
    let log := note log (.executing m.ip i m.depth)
    ((execute m.ip i next).run (m, s), log)

/-- Takes a step, and notes its events. -/
def stepNoting (note : L → Event → L) (m : Machine) (s : σ) (log : L) :
    Outcome Signal σ × L :=
  match m.status with
  | .stopped => (⟨.ok .stopped, m, s⟩, log)
  | .faulted fault => (⟨.error fault, m, s⟩, log)
  | .ready =>
    let (result, log) := executeNext note m s log
    (settle result, noteFault note log result)

/-- Steps until the program stops or faults, at most so many times, and
notes the events. -/
def driveNoting (note : L → Event → L) : Nat → Machine → σ → L → Option (Outcome Unit σ × L)
  | 0, _, _, _ => none
  | fuel + 1, m, s, log =>
    let (out, log) := m.stepNoting note s log
    match out.answer with
    | .ok .ready => driveNoting note fuel out.machine out.sink log
    | .ok .stopped =>
      some (⟨.ok (), out.machine, out.sink⟩, note log (.stopped out.machine.ip))
    | .error fault => some (⟨.error fault, out.machine, out.sink⟩, log)

/-- The machine before its first instruction, with its registers as they
are. -/
def restart (m : Machine) : Machine :=
  { m with ip := 0, stack := [], status := .ready }

/-- Runs the program from its start, and notes the events. -/
def runNoting (note : L → Event → L) (fuel : Nat) (m : Machine) (s : σ) (log : L) :
    Option (Outcome Unit σ × L) :=
  m.restart.driveNoting note fuel s (note log .started)

/-! ### Without a log -/

/-- Takes a step. -/
def step (m : Machine) (s : σ) : Outcome Signal σ :=
  (m.stepNoting (fun log _ => log) s ()).1

/-- Steps until the program stops or faults, at most so many times. -/
def drive (fuel : Nat) (m : Machine) (s : σ) : Option (Outcome Unit σ) :=
  (m.driveNoting (fun log _ => log) fuel s ()).map (·.1)

/-- Runs the program from its start. -/
def run (fuel : Nat) (m : Machine) (s : σ) : Option (Outcome Unit σ) :=
  (m.runNoting (fun log _ => log) fuel s ()).map (·.1)

/-- A run is driven from its start. -/
theorem run_eq (fuel : Nat) (m : Machine) (s : σ) : m.run fuel s = m.restart.drive fuel s :=
  rfl

/-- The events of a step, in order. -/
def events (m : Machine) (s : σ) : List Event :=
  (m.stepNoting (fun seen e => seen ++ [e]) s []).2

/-! ### One step -/

section Step

variable {m : Machine} {s : σ}

/-- A machine that is ready executes the instruction that it fetches. -/
theorem step_of_fetch (hready : m.status = .ready) {i : Instruction} {next : Nat}
    (hfetch : m.fetch = .ok (i, next)) :
    m.step s = settle ((execute m.ip i next).run (m, s)) := by
  rw [step, stepNoting, hready]
  dsimp only
  rw [executeNext, hfetch]

/-- A machine that is ready faults if it can fetch no instruction. -/
theorem step_of_fetch_error (hready : m.status = .ready) {fault : Fault}
    (hfetch : m.fetch = .error fault) :
    m.step s = ⟨.error fault, m.withStatus (.faulted fault), s⟩ := by
  rw [step, stepNoting, hready]
  dsimp only
  rw [executeNext, hfetch]
  rfl

/-- **Observing a step**: whatever log is kept, it is the same step, and the
log is told the same events. -/
theorem stepNoting_eq (note : L → Event → L) (log : L) :
    m.stepNoting note s log = (m.step s, (m.events s).foldl note log) := by
  rw [step, events, stepNoting, stepNoting, stepNoting]
  cases m.status with
  | stopped => rfl
  | faulted fault => rfl
  | ready =>
      rw [executeNext, executeNext, executeNext]
      cases m.fetch with
      | error fault => rfl
      | ok found =>
          dsimp only
          cases (execute m.ip found.1 found.2).run (m, s) <;> rfl

end Step

/-! ### All steps -/

/-- One step, and what follows it, with the events of the step noted. -/
theorem driveNoting_succ (note : L → Event → L) (fuel : Nat) (m : Machine) (s : σ) (log : L) :
    m.driveNoting note (fuel + 1) s log =
      match (m.step s).answer with
      | .ok .ready =>
        (m.step s).machine.driveNoting note fuel (m.step s).sink ((m.events s).foldl note log)
      | .ok .stopped =>
        some (⟨.ok (), (m.step s).machine, (m.step s).sink⟩,
          note ((m.events s).foldl note log) (.stopped (m.step s).machine.ip))
      | .error fault =>
        some (⟨.error fault, (m.step s).machine, (m.step s).sink⟩,
          (m.events s).foldl note log) := by
  rw [driveNoting, stepNoting_eq]

/-- One step, and what follows it. -/
theorem drive_succ (fuel : Nat) (m : Machine) (s : σ) :
    m.drive (fuel + 1) s =
      match (m.step s).answer with
      | .ok .ready => (m.step s).machine.drive fuel (m.step s).sink
      | .ok .stopped => some ⟨.ok (), (m.step s).machine, (m.step s).sink⟩
      | .error fault => some ⟨.error fault, (m.step s).machine, (m.step s).sink⟩ := by
  rw [drive, driveNoting_succ]
  cases (m.step s).answer with
  | error fault => rfl
  | ok signal => cases signal <;> rfl

/-- The log never reaches the machine. -/
theorem driveNoting_fst (note : L → Event → L) (fuel : Nat) (m : Machine) (s : σ) (log : L) :
    (m.driveNoting note fuel s log).map (·.1) = m.drive fuel s := by
  induction fuel generalizing m s log with
  | zero => rfl
  | succ fuel ih =>
      rw [driveNoting_succ, drive_succ]
      cases (m.step s).answer with
      | error fault => rfl
      | ok signal =>
          cases signal with
          | ready => exact ih _ _ _
          | stopped => rfl

/-- **Observing a run does not change it.** -/
theorem runNoting_fst (note : L → Event → L) (fuel : Nat) (m : Machine) (s : σ) (log : L) :
    (m.runNoting note fuel s log).map (·.1) = m.run fuel s :=
  driveNoting_fst note fuel m.restart s (note log .started)

end Machine

end Bytecode
