/-
What the verbosity and the colours of the log decide: which records are shown, and
how they look.

* `Machine.runNoting_rel`: two observers of one run, each with a log of its own;
* `Journal.Hears`: a journal keeps what its verbosity admits of the records of a
  journal that keeps them all;
* `execute_hears`: a command comes to the same ending at every verbosity, but for
  the records that it keeps;
* `Ending.records`, `Ending.closing` and `Ending.reportAt`: what a command has
  logged, the diagnostic behind it, and what is shown of both;
* `Styled`: a text with escapes in it that switch the look of a terminal;
* `logging_only_filters` (**the log only filters**).
-/
import Mathlib
import Bytecode.Proofs.Reports

namespace Bytecode

/-! ### Two observers -/

namespace Machine

variable {σ : Type} [Sink σ] {L L' : Type} {note : L → Event → L} {note' : L' → Event → L'}
  {R : L → L' → Prop}

/-- Two observers of the same steps: logs that every event leaves related are
related behind them. -/
lemma driveNoting_rel (hnote : ∀ log log' e, R log log' → R (note log e) (note' log' e))
    (fuel : ℕ) {m : Machine} {s : σ} {log : L} {log' : L'} (hlog : R log log') :
    Option.Rel (fun found found' => found'.1 = found.1 ∧ R found.2 found'.2)
      (m.driveNoting note fuel s log) (m.driveNoting note' fuel s log') := by
  have hfold : ∀ (events : List Event) {log : L} {log' : L'}, R log log' →
      R (events.foldl note log) (events.foldl note' log') := by
    intro events
    induction events with
    | nil => exact id
    | cons e rest ih => exact fun hlog => ih (hnote _ _ e hlog)
  induction fuel generalizing m s log log' with
  | zero => exact .none
  | succ fuel ih =>
      rw [driveNoting_succ, driveNoting_succ]
      cases (m.step s).answer with
      | error fault => exact .some ⟨rfl, hfold _ hlog⟩
      | ok signal =>
          cases signal with
          | ready => exact ih (hfold _ hlog)
          | stopped => exact .some ⟨rfl, hnote _ _ _ (hfold _ hlog)⟩

/-- **Two observers of one run.** -/
lemma runNoting_rel (hnote : ∀ log log' e, R log log' → R (note log e) (note' log' e))
    (fuel : ℕ) (m : Machine) (s : σ) {log : L} {log' : L'} (hlog : R log log') :
    Option.Rel (fun found found' => found'.1 = found.1 ∧ R found.2 found'.2)
      (m.runNoting note fuel s log) (m.runNoting note' fuel s log') :=
  driveNoting_rel hnote fuel (hnote _ _ _ hlog)

end Machine

namespace Command

/-! ### Two verbosities -/

/-- The severity of a record is never that of an error, nor that of a warning. -/
lemma Record.severity_ne (r : Record) : r.severity ≠ .error ∧ r.severity ≠ .warn := by
  have hrank := r.rank_info_le
  constructor
  · intro h
    rw [h] at hrank
    exact absurd hrank (by decide)
  · intro h
    rw [h] at hrank
    exact absurd hrank (by decide)

/-- The largest verbosity admits every record. -/
lemma Verbosity.admits_trace (s : Severity) : (upTo .trace).admits s = true := by
  cases s <;> rfl

variable {v : Verbosity}

/-- A journal of a verbosity has kept what the verbosity admits of the records of
another journal, which has kept them all. -/
structure Journal.Hears (v : Verbosity) (full j : Journal) : Prop where
  verbosity_full : full.verbosity = .upTo .trace
  verbosity_eq : j.verbosity = v
  reversed_eq : j.reversed = full.reversed.filter fun r => v.admits r.severity

/-- Journals without records. -/
lemma Journal.hears_blank (v : Verbosity) : Hears v (blank (.upTo .trace)) (blank v) :=
  ⟨rfl, rfl, rfl⟩

/-- A record that both journals are given is kept in full, and by the other one if
the verbosity admits it. -/
lemma Journal.Hears.note {full j : Journal} (h : Hears v full j) (r : Record) :
    Hears v (full.note r) (j.note r) := by
  have hfull : full.note r = { full with reversed := r :: full.reversed } := by
    rw [Journal.note, h.verbosity_full, if_pos (Verbosity.admits_trace _)]
  rw [hfull, Journal.note, h.verbosity_eq]
  by_cases hadmits : v.admits r.severity = true
  · rw [if_pos hadmits]
    exact ⟨h.verbosity_full, rfl, by simp [hadmits, h.reversed_eq]⟩
  · rw [if_neg hadmits]
    exact ⟨h.verbosity_full, h.verbosity_eq, by simp [hadmits, h.reversed_eq]⟩

/-- The records in order are those of the other journal that are admitted. -/
lemma Journal.Hears.records_eq {full j : Journal} (h : Hears v full j) :
    j.records = full.records.filter fun r => v.admits r.severity := by
  rw [records, records, h.reversed_eq, List.filter_reverse]

/-- The same ending, one with all records and one with those that the verbosity
admits. -/
structure Ending.Hears (v : Verbosity) (full e : Ending) : Prop where
  result_eq : e.result = full.result
  console_eq : e.console = full.console
  journal : Journal.Hears v full.journal e.journal

/-- A program runs to the same ending at every verbosity. -/
lemma play_hears {full j : Journal} (h : Journal.Hears v full j) (fuel : ℕ) (limits : Limits)
    (program : Bytes) (c : Console) :
    Option.Rel (Ending.Hears v) (play fuel limits program c full)
      (play fuel limits program c j) := by
  rw [play, play]
  cases Machine.load .standard limits program with
  | error e => exact .some ⟨rfl, rfl, h⟩
  | ok m =>
      have hnote : ∀ full j e, Journal.Hears v full j →
          Journal.Hears v (full.noteEvent e) (j.noteEvent e) := fun _ _ e h => h.note (.event e)
      have hrel := Machine.runNoting_rel hnote fuel m (Printer.onto c) (hnote _ _ m.loadEvent h)
      dsimp only
      generalize m.runNoting Journal.noteEvent fuel (Printer.onto c)
        (full.noteEvent m.loadEvent) = found? at hrel ⊢
      generalize m.runNoting Journal.noteEvent fuel (Printer.onto c)
        (j.noteEvent m.loadEvent) = found?' at hrel ⊢
      cases hrel with
      | none => exact .none
      | @some found found' hfound =>
          obtain ⟨out, full'⟩ := found
          obtain ⟨out', j'⟩ := found'
          obtain ⟨rfl, hjournal⟩ := hfound
          exact .some ⟨rfl, rfl, hjournal⟩

/-- **The same ending at every verbosity**, with the records that it admits. -/
theorem execute_hears (fuel : ℕ) (host : Host) (a : Arguments) (v : Verbosity) :
    Option.Rel (Ending.Hears v) (execute fuel host { a with verbosity := .upTo .trace })
      (execute fuel host { a with verbosity := v }) := by
  have hblank := Journal.hears_blank v
  rw [execute, execute]
  cases a.limits.check .standard with
  | error e => exact .some ⟨rfl, rfl, hblank⟩
  | ok u =>
      dsimp only
      cases host.read a.program with
      | error e => exact .some ⟨rfl, rfl, hblank⟩
      | ok program =>
          have hread := hblank.note (.read program.size a.program)
          dsimp only
          by_cases hlisting : a.listing = true
          · rw [if_pos hlisting, if_pos hlisting]
            exact .some ⟨rfl, rfl, hread⟩
          · rw [if_neg hlisting, if_neg hlisting]
            exact play_hears hread fuel a.limits program _

/-! ### What is shown -/

namespace Ending

/-- The exit status of a command that has ended. -/
def exitCode (e : Ending) : ℕ :=
  match e.result with
  | .ok () => 0
  | .error _ => 1

/-- What a command that has ended has given to standard output. -/
def stdout (e : Ending) : String :=
  e.console.close.delivered

/-- What a command that has ended has logged: a failure comes behind everything
else. -/
def records (e : Ending) : List Record :=
  match e.result with
  | .ok () => e.journal.records
  | .error f => (e.journal.note (.exiting f)).records

/-- The diagnostic of a failure, and nothing without one. -/
def closing (e : Ending) : String :=
  match e.result with
  | .ok () => ""
  | .error f => diagnostic f

/-- What is shown of an ending at a verbosity: the records that it admits, one after
the other, and then the diagnostic. -/
def reportAt (v : Verbosity) (colour : Bool) (e : Ending) : Report :=
  ⟨e.exitCode, e.stdout,
    String.join ((e.records.filter fun r => v.admits r.severity).map (Record.line colour)) ++
      e.closing⟩

/-- A command has no diagnostic exactly if it has succeeded. -/
lemma closing_eq_empty_iff (e : Ending) : e.closing = "" ↔ e.exitCode = 0 := by
  rw [closing, exitCode]
  cases e.result with
  | ok u => exact iff_of_true rfl rfl
  | error f =>
      refine iff_of_false (fun h => ?_) Nat.one_ne_zero
      have hlist := congrArg String.toList h
      simp [diagnostic] at hlist

/-- The report of an ending shows, of the records of the full journal, those that the
verbosity admits. -/
lemma Hears.report_eq {full e : Ending} (h : Hears v full e) (colour : Bool) :
    e.report colour = full.reportAt v colour := by
  obtain ⟨result, console, j⟩ := e
  obtain ⟨result', console', j'⟩ := full
  obtain ⟨rfl, rfl, hjournal⟩ := h
  cases result with
  | ok u =>
      rw [report, reportAt, records]
      dsimp only at hjournal ⊢
      rw [Journal.text, hjournal.records_eq]
      exact congrArg (Report.mk 0 _) String.append_empty.symm
  | error f =>
      rw [report, reportAt, records]
      dsimp only at hjournal ⊢
      rw [Journal.text, (hjournal.note (.exiting f)).records_eq]
      rfl

/-- Where no record is admitted, the diagnostic is shown alone. -/
lemma reportAt_of_quiet (hquiet : v.admits .info = false) (colour : Bool) (e : Ending) :
    e.reportAt v colour = ⟨e.exitCode, e.stdout, e.closing⟩ := by
  have hnone : e.records.filter (fun r => v.admits r.severity) = [] := by
    refine List.filter_eq_nil_iff.mpr fun r _ hadmits => ?_
    rw [Verbosity.admits_of_rank_le r.rank_info_le hadmits] at hquiet
    cases hquiet
  rw [reportAt, hnone]
  exact congrArg (Report.mk _ _) String.empty_append

end Ending

/-! ### Colours -/

/-- The second text is the first one with escapes in it that switch the look of a
terminal: an escape character and a bracket, digits, and the letter `m`. -/
inductive Styled : List Char → List Char → Prop
  | nil : Styled [] []
  /-- A character that both have. -/
  | char (c : Char) {text styled : List Char} (h : Styled text styled) :
      Styled (c :: text) (c :: styled)
  /-- An escape. -/
  | escape {digits : List Char} (hdigits : ∀ c ∈ digits, c.isDigit = true)
      {text styled : List Char} (h : Styled text styled) :
      Styled text ('\x1b' :: '[' :: digits ++ 'm' :: styled)

namespace Styled

/-- A text without escapes. -/
lemma refl (text : List Char) : Styled text text := by
  induction text with
  | nil => exact .nil
  | cons c rest ih => exact .char c ih

/-- Texts one after the other. -/
lemma append {text styled text' styled' : List Char} (h : Styled text styled)
    (h' : Styled text' styled') : Styled (text ++ text') (styled ++ styled') := by
  induction h with
  | nil => exact h'
  | char c _ ih => exact .char c ih
  | @escape digits hdigits _ _ _ ih =>
      have hescape := Styled.escape hdigits ih
      simpa using hescape

/-- The look of a severity, and the usual one, in front of a text. -/
lemma append_left {text styled : List Char} (h : Styled text styled) (s : Severity) :
    Styled text (Record.plain.toList ++ styled) ∧ Styled text (s.style.toList ++ styled) := by
  constructor
  · exact @escape ['0'] (by simp) _ _ h
  · cases s with
    | error => exact @escape ['1'] (by simp) _ _ (@escape ['3', '1'] (by simp) _ _ h)
    | warn => exact @escape ['1'] (by simp) _ _ (@escape ['3', '3'] (by simp) _ _ h)
    | info => exact h
    | debug | trace => exact @escape ['2'] (by simp) _ _ h

end Styled

/-- A line of the log with colours is the line without them, with escapes in it. -/
lemma Record.styled_line (r : Record) (colour : Bool) :
    Styled (r.line false).toList (r.line colour).toList := by
  cases colour with
  | false => exact .refl _
  | true =>
      have hrest := Styled.refl (" " ++ r.source ++ ": " ++ r.text ++ "\n").toList
      have hbadge := (Styled.refl r.badge.toList).append (hrest.append_left r.severity).1
      have hline := ((hbadge.append_left r.severity).2.append_left r.severity).1
      simpa [line, String.toList_append, List.append_assoc] using hline

/-- The same of all lines of a log, and of the diagnostic behind them. -/
lemma Ending.styled_reportAt (e : Ending) (v : Verbosity) (colour : Bool) :
    Styled (e.reportAt v false).stderr.toList (e.reportAt v colour).stderr.toList := by
  have hlines : ∀ records : List Record,
      Styled (String.join (records.map (Record.line false))).toList
        (String.join (records.map (Record.line colour))).toList := by
    intro records
    induction records with
    | nil => exact .nil
    | cons r rest ih =>
        simpa using (r.styled_line colour).append ih
  rw [reportAt, reportAt, String.toList_append, String.toList_append]
  exact (hlines _).append (.refl _)

/-- **The log only filters.** Take what a command comes to at the largest verbosity,
which admits every record, if it comes to an end. None of the records there is an
error or a warning, and there is a diagnostic exactly if the exit status is not
zero. Any arguments that ask for the same at some verbosity come to the same
within the same number of steps, whatever is known of the terminal: to the same
exit status and the same output, and in the log to those of the records that the
verbosity admits, in order, with the same diagnostic behind them. If it admits
neither information nor what is less grave, the diagnostic stands alone. With
colours the text is the same but for the escapes in it. -/
theorem logging_only_filters (read : String → Except SystemError Bytes) (device : Device)
    (a : Arguments) (fuel : ℕ) :
    let full? := execute fuel ⟨read, device, false⟩ { a with verbosity := .upTo .trace }
    (∀ s, (Verbosity.upTo .trace).admits s = true) ∧
    (∀ e, full? = some e →
      (∀ r ∈ e.records, r.severity ≠ .error ∧ r.severity ≠ .warn) ∧
        (e.closing = "" ↔ e.exitCode = 0)) ∧
    (∀ arguments v, Request.parse arguments = .ok (.execute { a with verbosity := v }) →
      ∀ terminal noColour,
        let host : Host := ⟨read, device, wantsColour terminal noColour⟩
        report fuel host arguments = full?.map (Ending.reportAt v host.colour) ∧
          (v ∈ [Verbosity.off, .upTo .error, .upTo .warn] →
            report fuel host arguments
              = full?.map fun e => ⟨e.exitCode, e.stdout, e.closing⟩)) ∧
    ∀ e, full? = some e → ∀ v colour,
      Styled (e.reportAt v false).stderr.toList (e.reportAt v colour).stderr.toList := by
  intro full?
  refine ⟨Verbosity.admits_trace, fun e _ => ⟨fun r _ => r.severity_ne, e.closing_eq_empty_iff⟩,
    fun arguments v hparse terminal noColour => ?_, fun e _ v colour => e.styled_reportAt v colour⟩
  intro host
  have hreport : report fuel host arguments = full?.map (Ending.reportAt v host.colour) := by
    have hhears : Option.Rel (Ending.Hears v) full? (execute fuel host { a with verbosity := v }) :=
      execute_hears fuel host a v
    rw [report, hparse]
    dsimp only
    generalize execute fuel host { a with verbosity := v } = ending? at hhears ⊢
    generalize full? = full? at hhears ⊢
    cases hhears with
    | none => rfl
    | some h => exact congrArg some (h.report_eq host.colour)
  refine ⟨hreport, fun hquiet => ?_⟩
  have hadmits : v.admits .info = false := by
    simp only [List.mem_cons, List.not_mem_nil, or_false] at hquiet
    rcases hquiet with rfl | rfl | rfl
    · rfl
    · rfl
    · rfl
  rw [hreport]
  exact congrArg (full?.map ·) (funext (Ending.reportAt_of_quiet hadmits host.colour))

/-- `PUSH 7`, `PRINT` and a `POP` too many: the same at two verbosities, one of them
with colours. -/
theorem logging_only_filters_of_fault :
    let program : Bytes := #[1, 7, 0, 0, 0, 12, 2]
    report 4 ⟨fun _ => .ok program, .working, wantsColour (some "xterm") none⟩
        ["--log-level", "Info", "a.bin"]
      = some ⟨1, "7\n", "\x1b[0m[INFO ]\x1b[0m bci: read 7 bytes from a.bin\n" ++
          "bci: POP at offset 6 needs 1 operand(s) on the stack, found 0\n"⟩ ∧
      report 4 ⟨fun _ => .ok program, .working, wantsColour none none⟩
          ["a.bin", "--log-level", "off"]
        = some ⟨1, "7\n", "bci: POP at offset 6 needs 1 operand(s) on the stack, found 0\n"⟩ := by
  intro program
  let a : Arguments := ⟨"a.bin", .standard, false, .upTo .warn⟩
  have hinfo : Request.parse ["--log-level", "Info", "a.bin"]
      = .ok (.execute { a with verbosity := .upTo .info }) := by
    decide +kernel
  have hoff : Request.parse ["a.bin", "--log-level", "off"]
      = .ok (.execute { a with verbosity := .off }) := by
    decide +kernel
  obtain ⟨-, -, hreport, -⟩ := logging_only_filters (fun _ => .ok program) .working a 4
  -- both reports are taken from the same ending
  have hboth : (execute 4 ⟨fun _ => .ok program, .working, false⟩
      { a with verbosity := .upTo .trace }).map
        (fun e => (e.reportAt (.upTo .info) true, e.reportAt .off false))
      = some (⟨1, "7\n", "\x1b[0m[INFO ]\x1b[0m bci: read 7 bytes from a.bin\n" ++
          "bci: POP at offset 6 needs 1 operand(s) on the stack, found 0\n"⟩,
        ⟨1, "7\n", "bci: POP at offset 6 needs 1 operand(s) on the stack, found 0\n"⟩) := by
    decide +kernel
  constructor
  · rw [(hreport _ _ hinfo (some "xterm") none).1]
    have hfirst := congrArg (Option.map Prod.fst) hboth
    rwa [Option.map_map] at hfirst
  · rw [(hreport _ _ hoff none none).1]
    have hsecond := congrArg (Option.map Prod.snd) hboth
    rwa [Option.map_map] at hsecond

end Command

end Bytecode
