/-
What the command reports of a run, when it is told nothing about its log and
its output is taken.

* `runNoting_of_inert`: an observer that keeps its log leaves nothing but the
  run;
* `Journal.note_of_quiet`: a journal that does not admit as much as information
  stays as it is;
* `Command.reported`: the report that a run calls for; `report_of_play`: it is
  the one that is made;
* `run_is_reported` (**what is reported of a run**): the failures in the order
  in which they are looked for, and otherwise the outcome of the run, with all
  that was printed.
-/
import Mathlib
import Bytecode.Command.Session
import Bytecode.Proofs.Loading
import Bytecode.Proofs.Printing
import Bytecode.Proofs.Twins

namespace Bytecode

/-! ### Nothing is noted -/

namespace Machine

variable {σ : Type} [Sink σ] {L : Type} {note : L → Event → L} {log : L}

/-- An observer that keeps its log leaves nothing but the steps. -/
lemma driveNoting_of_inert (hinert : ∀ e, note log e = log) (fuel : ℕ) (m : Machine) (s : σ) :
    m.driveNoting note fuel s log = (m.drive fuel s).map (·, log) := by
  induction fuel generalizing m s with
  | zero => rfl
  | succ fuel ih =>
      have hfold : ∀ events : List Event, events.foldl note log = log :=
        List.foldl_fixed' hinert
      rw [driveNoting_succ, drive_succ, hfold]
      cases (m.step s).answer with
      | error fault => rfl
      | ok signal =>
          cases signal with
          | ready => exact ih _ _
          | stopped => simp [hinert]

/-- **An observer that keeps its log** leaves nothing but the run. -/
lemma runNoting_of_inert (hinert : ∀ e, note log e = log) (fuel : ℕ) (m : Machine) (s : σ) :
    m.runNoting note fuel s log = (m.run fuel s).map (·, log) := by
  rw [runNoting, hinert, driveNoting_of_inert hinert]
  rfl

end Machine

namespace Command

/-- Records are never graver than information. -/
lemma Record.rank_info_le (r : Record) : Severity.info.rank ≤ r.severity.rank := by
  cases r with
  | event e => cases e <;> simp [severity, Severity.rank]
  | _ => simp [severity, Severity.rank]

/-- A verbosity that admits some records admits all graver ones. -/
lemma Verbosity.admits_of_rank_le {v : Verbosity} {s s' : Severity} (hle : s.rank ≤ s'.rank)
    (h : v.admits s' = true) : v.admits s = true := by
  cases v with
  | off => exact h
  | upTo least =>
      simp only [admits, decide_eq_true_eq] at h ⊢
      exact hle.trans h

/-- A journal that does not admit as much as information stays as it is. -/
lemma Journal.note_of_quiet {j : Journal} (h : j.verbosity.admits .info = false) (r : Record) :
    j.note r = j := by
  rw [note, if_neg]
  intro hadmits
  rw [Verbosity.admits_of_rank_le r.rank_info_le hadmits] at h
  cases h

/-! ### The reports -/

/-- The report of a failure, with what was printed before it. -/
def complaint (stdout message : String) : Report :=
  ⟨1, stdout, "bci: " ++ message ++ "\n"⟩

/-- The report that a run calls for. -/
def reported (out : Outcome Unit Roll) : Report :=
  match out.answer with
  | .ok () => ⟨0, Word.lines out.sink.words, ""⟩
  | .error fault => complaint (Word.lines out.sink.words) fault.message

variable {v : Verbosity}

/-- A command that has kept no records reports its failure alone. -/
lemma report_of_error (hquiet : v.admits .info = false) (colour : Bool) (f : Failure)
    (c : Console) :
    (Ending.mk (.error f) c (.blank v)).report colour
      = complaint c.close.delivered f.message := by
  rw [Ending.report]
  dsimp only
  rw [Journal.note_of_quiet hquiet]
  exact congrArg (Report.mk 1 _) (String.empty_append)

/-- A command that has kept no records reports that it was done. -/
lemma report_of_ok (colour : Bool) (c : Console) :
    (Ending.mk (.ok ()) c (.blank v)).report colour = ⟨0, c.close.delivered, ""⟩ :=
  rfl

/-- The report of an outcome, printed by a printer that shows what a roll
holds. -/
lemma report_of_alike (hquiet : v.admits .info = false) (colour : Bool)
    {out : Outcome Unit Printer} {out' : Outcome Unit Roll}
    (hanswer : out'.answer = out.answer) (hshows : out.sink.Shows out'.sink) :
    ∃ c, out.sink.finish = .ok c ∧
      (Ending.mk (verdict out.answer (.ok c)) c (.blank v)).report colour = reported out' := by
  obtain ⟨c, hfinish, hdelivered⟩ := hshows.finish
  refine ⟨c, hfinish, ?_⟩
  rw [reported, hanswer, ← hdelivered]
  cases out.answer with
  | ok u => exact report_of_ok colour c
  | error fault =>
      have hverdict : verdict (.error fault) (.ok c) = .error (.faulted fault) := by
        cases fault <;> rfl
      rw [hverdict]
      exact report_of_error hquiet colour _ c

/-- **The report of a program** that is loaded and run. -/
theorem report_of_play {limits : Limits} {program : Bytes} {m : Machine}
    (hload : Machine.load .standard limits program = .ok m) (hquiet : v.admits .info = false)
    (colour : Bool) (fuel : ℕ) :
    (play fuel limits program (.blank .working) (.blank v)).map (Ending.report colour)
      = (m.run fuel Roll.blank).map reported := by
  have hnote : ∀ e, (Journal.blank v).noteEvent e = Journal.blank v := fun e =>
    Journal.note_of_quiet hquiet _
  have hrel := Machine.run_matches (.of_load hload) Printer.matches_shows Printer.shows_blank fuel
  rw [play, hload]
  dsimp only
  rw [hnote, Machine.runNoting_of_inert hnote]
  generalize m.run fuel (Printer.onto (.blank .working)) = out? at hrel ⊢
  generalize m.run fuel Roll.blank = out?' at hrel ⊢
  cases hrel with
  | none => rfl
  | @some out out' halike =>
      obtain ⟨c, hfinish, hreport⟩ := report_of_alike hquiet colour halike.answer_eq halike.sink
      simp only [Option.map_some, hfinish]
      exact congrArg some hreport

/-- **What is reported of a run**, with the default verbosity and a working
device. The first limit that is out of its range is reported, whatever there is
to be read; else a file that can not be read; else a program that does not fit
the memory, before any step is taken. Nothing has been printed then. Otherwise
the program is loaded, and the report is that of its run with a sink that takes
every word, if the run ends: all that was printed, word by word on lines of
their own, and the fault if there is one. No other words have these lines. -/
theorem run_is_reported {arguments : List String} {a : Arguments}
    (hparse : Request.parse arguments = .ok (.execute a)) (hrun : a.listing = false)
    (hlevel : a.verbosity = .upTo .warn) (host : Host) (hdevice : host.device = .working)
    (fuel : ℕ) :
    let capacity : Limits := ⟨256, 16, 65536⟩
    (∀ r, a.limits.misfit? capacity = some r →
      report fuel host arguments = some (complaint ""
        (LoadError.limitOutOfRange r (a.limits.get r) (capacity.get r)).message)) ∧
    (a.limits.misfit? capacity = none →
      (∀ e, host.read a.program = .error e →
        report fuel host arguments
          = some (complaint "" ("error reading " ++ a.program ++ ": " ++ e.message))) ∧
      ∀ program, host.read a.program = .ok program →
        (a.limits.memorySize < program.size →
          report fuel host arguments = some (complaint ""
            (LoadError.programTooLarge program.size a.limits.memorySize).message)) ∧
        (program.size ≤ a.limits.memorySize →
          ∃ m, Machine.load capacity a.limits program = .ok m ∧
            report fuel host arguments = (m.run fuel Roll.blank).map reported)) ∧
    Function.Injective Word.lines := by
  intro capacity
  have hquiet : a.verbosity.admits .info = false := by
    rw [hlevel]
    rfl
  have hreport : report fuel host arguments
      = (execute fuel host a).map (Ending.report host.colour) := by
    rw [report, hparse]
  have hfailed : ∀ f, (Ending.mk (.error f) (.blank .working) (.blank a.verbosity)).report
      host.colour = complaint "" f.message := fun f => report_of_error hquiet host.colour f _
  refine ⟨fun r hr => ?_, fun hfits => ?_, Word.lines_injective⟩
  · have hcheck : a.limits.check .standard
        = .error (.limitOutOfRange r (a.limits.get r) (capacity.get r)) :=
      Limits.check_of_misfit?_eq_some hr
    rw [hreport, execute, hdevice, hcheck]
    exact congrArg some (hfailed _)
  · have hcheck : a.limits.check .standard = .ok () := Limits.check_of_misfit?_eq_none hfits
    refine ⟨fun e hread => ?_, fun program hread => ?_⟩
    · rw [hreport, execute, hdevice, hcheck, hread]
      exact congrArg some (hfailed _)
    · -- neither the file that was read nor anything after it is noted
      have hplay : execute fuel host a
          = play fuel a.limits program (.blank .working) (.blank a.verbosity) := by
        rw [execute, hdevice, hcheck, hread]
        dsimp only
        rw [hrun, Journal.note_of_quiet hquiet]
        rfl
      rw [hreport, hplay]
      refine ⟨fun hlarge => ?_, fun hsize => ?_⟩
      · have hload : Machine.load .standard a.limits program
            = .error (.programTooLarge program.size a.limits.memorySize) := by
          rw [Machine.load, hcheck]
          exact if_pos hlarge
        rw [play, hload]
        exact congrArg some (hfailed _)
      · have hload := Machine.load_eq_ok_iff.mpr
          ⟨Limits.check_eq_ok_iff.mp hcheck, hsize, rfl⟩
        exact ⟨_, hload, report_of_play hload hquiet host.colour fuel⟩

/-- A program prints `-7` and `2`, and finds the stack empty. What it has printed
is there in spite of the fault. -/
theorem run_is_reported_with_fault :
    let program : Bytes := #[1, 249, 255, 255, 255, 12, 1, 2, 0, 0, 0, 12, 2]
    report 9 ⟨fun _ => .ok program, .working, true⟩
        ["--stack-size", "1", "--num-registers", "1", "--max-program-bytes", "13", "a.bin"]
      = some ⟨1, "-7\n2\n",
        "bci: POP at offset 12 needs 1 operand(s) on the stack, found 0\n"⟩ := by
  intro program
  have hparse : Request.parse
      ["--stack-size", "1", "--num-registers", "1", "--max-program-bytes", "13", "a.bin"]
        = .ok (.execute ⟨"a.bin", ⟨1, 1, 13⟩, false, .upTo .warn⟩) := by
    decide +kernel
  obtain ⟨-, hfits, -⟩ :=
    run_is_reported hparse rfl rfl ⟨fun _ => .ok program, .working, true⟩ rfl 9
  obtain ⟨m, hload, hreport⟩ := ((hfits (by decide)).2 program rfl).2 (by decide)
  -- the same is printed in storage that is no larger than it has to be
  have hsmall : ((Machine.fresh ⟨1, 1, 13⟩ ⟨1, 1, 13⟩ program).run 9 Roll.blank).map reported
      = some ⟨1, "-7\n2\n",
        "bci: POP at offset 12 needs 1 operand(s) on the stack, found 0\n"⟩ := by
    decide +kernel
  have hload' : Machine.load ⟨1, 1, 13⟩ ⟨1, 1, 13⟩ program
      = .ok (Machine.fresh ⟨1, 1, 13⟩ ⟨1, 1, 13⟩ program) :=
    Machine.load_eq_ok_iff.mpr ⟨fun r => by cases r <;> decide, by decide, rfl⟩
  have hpadded : Machine.load ⟨256, 16, 65536⟩ ⟨1, 1, 13⟩ (program ++ Array.replicate 0 0)
      = .ok m := by
    rw [Array.replicate_zero, Array.append_empty]
    exact hload
  have hrel := Machine.bisimulation_twins.run
    (Machine.twins_of_load hload' hpadded (by decide)) 9 Roll.blank
  rw [hreport, ← hsmall]
  generalize m.run 9 Roll.blank = out? at hrel ⊢
  generalize (Machine.fresh ⟨1, 1, 13⟩ ⟨1, 1, 13⟩ program).run 9 Roll.blank = out?' at hrel ⊢
  cases hrel with
  | none => rfl
  | some halike =>
      refine congrArg some ?_
      rw [reported, reported, halike.answer_eq, halike.sink]

end Command

end Bytecode
