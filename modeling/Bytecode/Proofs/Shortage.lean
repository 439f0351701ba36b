/-
What the command reports on a full device: no output is lost without notice.

* `Journal.Sound`: a journal with nothing but what its verbosity admits. What
  holds of a log stays true of it through a run (`Machine.driveNoting_log`);
* `Tells`: what a report tells of a result, apart from the log;
* `shortfall`: what is left of a result if the text that was written before it is
  lost. Too much text for the buffer is noticed before the result, and any text
  at all before success;
* `list_holding`, `RunsTo`: what a listing and a run come to on a full device. The
  latter is the verdict on the run with a printer there (`runsTo_iff`), which is
  what the command reports (`Reads.report_run_full`);
* `lost_output_is_reported` (**no lost output is reported as success**);
* `Repeats`: a machine that prints one word for ever, and the step in which its
  lines become too many (`Repeats.overruns`).
-/
import Mathlib
import Bytecode.Proofs.Listings
import Bytecode.Proofs.Overrun
import Bytecode.Proofs.Simulation
import Bytecode.Proofs.Straight

namespace Bytecode

/-! ### What an observer keeps -/

namespace Machine

variable {σ : Type} [Sink σ] {L : Type} {note : L → Event → L} {P : L → Prop}

/-- What holds of a log, and of a log with one more event, holds of the log behind
the steps. -/
lemma driveNoting_log (hnote : ∀ log e, P log → P (note log e)) {fuel : ℕ} {m : Machine} {s : σ}
    {log : L} {result : Outcome Unit σ × L} (h : m.driveNoting note fuel s log = some result)
    (hlog : P log) : P result.2 := by
  have hfold : ∀ (events : List Event) (log : L), P log → P (events.foldl note log) := by
    intro events
    induction events with
    | nil => exact fun _ hlog => hlog
    | cons e rest ih => exact fun log hlog => ih _ (hnote log e hlog)
  induction fuel generalizing m s log with
  | zero => cases h
  | succ fuel ih =>
      rw [driveNoting_succ] at h
      cases hanswer : (m.step s).answer with
      | error fault =>
          rw [hanswer] at h
          cases h
          exact hfold _ _ hlog
      | ok signal =>
          rw [hanswer] at h
          cases signal with
          | ready => exact ih h (hfold _ _ hlog)
          | stopped =>
              cases h
              exact hnote _ _ (hfold _ _ hlog)

end Machine

namespace Command

variable {v : Verbosity} {colour : Bool}

/-! ### The log -/

/-- A journal of a verbosity has nothing but what the verbosity admits. -/
structure Journal.Sound (v : Verbosity) (j : Journal) : Prop where
  verbosity_eq : j.verbosity = v
  admitted : ∀ r ∈ j.reversed, v.admits r.severity = true

/-- A journal without records has nothing that is not admitted. -/
lemma Journal.sound_blank (v : Verbosity) : (Journal.blank v).Sound v :=
  ⟨rfl, by rintro _ ⟨⟩⟩

/-- A record that is not admitted is not kept. -/
lemma Journal.Sound.note {j : Journal} (h : j.Sound v) (r : Record) : (j.note r).Sound v := by
  rw [Journal.note]
  split_ifs with hadmits
  · rw [h.verbosity_eq] at hadmits
    exact ⟨h.verbosity_eq, List.forall_mem_cons.mpr ⟨hadmits, h.admitted⟩⟩
  · exact h

/-- What a report tells of a result: nothing on the output, a log of records that
the verbosity admits, and behind it the diagnostic of a failure. -/
def Tells (v : Verbosity) (colour : Bool) (result : Except Failure Unit) (r : Report) : Prop :=
  r.stdout = "" ∧ ∃ log : List Record, (∀ record ∈ log, v.admits record.severity = true) ∧
    match result with
    | .ok () => r.exitCode = 0 ∧ r.stderr = String.join (log.map (Record.line colour))
    | .error f =>
      r.exitCode = 1 ∧
        r.stderr = String.join (log.map (Record.line colour)) ++ ("bci: " ++ f.message ++ "\n")

/-- A report tells of success by its exit status. -/
lemma Tells.exitCode_eq_zero_iff {result : Except Failure Unit} {r : Report}
    (h : Tells v colour result r) : r.exitCode = 0 ↔ result = .ok () := by
  obtain ⟨-, log, -, hresult⟩ := h
  cases result with
  | ok u => exact iff_of_true hresult.1 rfl
  | error f =>
      refine iff_of_false ?_ (by rintro ⟨⟩)
      rw [hresult.1]
      exact Nat.one_ne_zero

/-- Without a log the report is the diagnostic alone. -/
lemma Tells.eq_complaint (hquiet : v.admits .info = false) {f : Failure} {r : Report}
    (h : Tells v colour (.error f) r) : r = complaint "" f.message := by
  obtain ⟨hstdout, log, hlog, hexit, hstderr⟩ := h
  have hempty : log = [] := by
    refine List.eq_nil_iff_forall_not_mem.mpr fun record hmem => ?_
    have hadmits := Verbosity.admits_of_rank_le record.rank_info_le (hlog record hmem)
    rw [hquiet] at hadmits
    cases hadmits
  rw [hempty] at hstderr
  obtain ⟨exitCode, stdout, stderr⟩ := r
  dsimp only at hstdout hexit hstderr
  rw [hstdout, hexit, hstderr]
  exact congrArg (Report.mk 1 "") String.empty_append

/-- **The report of an ending** on a full device tells of its result. -/
lemma tells_report {j : Journal} (hj : j.Sound v) (result : Except Failure Unit) (text : String) :
    Tells v colour result ((Ending.mk result (.holding text) j).report colour) := by
  have hrecords : ∀ {j : Journal}, j.Sound v →
      ∀ record ∈ j.records, v.admits record.severity = true := fun hj record hmem =>
    hj.admitted record (List.mem_reverse.mp hmem)
  cases result with
  | ok u =>
      exact ⟨Console.delivered_close_holding text, j.records, hrecords hj, rfl, rfl⟩
  | error f =>
      exact ⟨Console.delivered_close_holding text, (j.note (.exiting f)).records,
        hrecords (hj.note _), rfl, rfl⟩

/-! ### What is left of a result -/

/-- What is left of a result if the text written before it is lost. A text that
does not fit the buffer is noticed while it is written, and a text that does once
everything else has been done. -/
def shortfall (text : String) (result : Except Failure Unit) : Except Failure Unit :=
  if Console.bufferSize < text.utf8ByteSize then .error (.unwritable .storageFull)
  else
    match result with
    | .error f => .error f
    | .ok () => if text = "" then .ok () else .error (.unwritable .storageFull)

section Shortfall

variable {text : String} {result : Except Failure Unit} {f : Failure}

/-- Too much text is noticed first. -/
lemma shortfall_of_lt (h : Console.bufferSize < text.utf8ByteSize) :
    shortfall text result = .error (.unwritable .storageFull) :=
  if_pos h

/-- A failure is noticed before the text that waits in the buffer. -/
lemma shortfall_error (h : text.utf8ByteSize ≤ Console.bufferSize) :
    shortfall text (.error f) = .error f :=
  if_neg (Nat.not_lt_of_le h)

/-- Text that waits in the buffer is noticed in the end. -/
lemma shortfall_ok (h : text.utf8ByteSize ≤ Console.bufferSize) :
    shortfall text (.ok ()) = if text = "" then .ok () else .error (.unwritable .storageFull) :=
  if_neg (Nat.not_lt_of_le h)

/-- Any text at all is noticed, in the end or before. -/
lemma shortfall_ok_of_ne (h : text ≠ "") :
    shortfall text (.ok ()) = .error (.unwritable .storageFull) := by
  rw [shortfall]
  split_ifs <;> rfl

/-- Nothing is left of success but where nothing has been written. -/
lemma shortfall_eq_ok_iff : shortfall text result = .ok () ↔ text = "" ∧ result = .ok () := by
  rcases Nat.lt_or_ge Console.bufferSize text.utf8ByteSize with hover | hroom
  · rw [shortfall_of_lt hover]
    refine iff_of_false (by rintro ⟨⟩) ?_
    rintro ⟨rfl, -⟩
    exact absurd hover (Nat.not_lt_of_le (Nat.zero_le _))
  · cases result with
    | error f => simp [shortfall_error hroom]
    | ok u =>
        rw [shortfall_ok hroom]
        by_cases h : text = "" <;> simp [h]

/-- What is left of a result is that failure, or the text that is lost. -/
lemma eq_or_of_shortfall_eq_error (h : shortfall text result = .error f) :
    f = .unwritable .storageFull ∨ result = .error f := by
  rcases Nat.lt_or_ge Console.bufferSize text.utf8ByteSize with hover | hroom
  · rw [shortfall_of_lt hover] at h
    exact .inl (Except.error.inj h).symm
  · cases result with
    | error f' => exact .inr ((shortfall_error hroom).symm.trans h)
    | ok u =>
        rw [shortfall_ok hroom] at h
        split_ifs at h
        exact .inl (Except.error.inj h).symm

end Shortfall

/-! ### Listings -/

/-- Entries whose lines fit the buffer are written. -/
lemma listEntries_holding_of_le {text : String} (front : List Entry)
    (rest : List (Except DecodeError Entry))
    (h : (text ++ Entry.lines front).utf8ByteSize ≤ Console.bufferSize) :
    listEntries (.holding text) (front.map .ok ++ rest)
      = listEntries (.holding (text ++ Entry.lines front)) rest := by
  induction front generalizing text with
  | nil => exact congrArg (fun text => listEntries (.holding text) rest) String.append_empty.symm
  | cons e front ih =>
      rw [Entry.lines_cons, ← String.append_assoc] at h ⊢
      have hline : (text ++ e.line).utf8ByteSize ≤ Console.bufferSize := by
        rw [String.utf8ByteSize_append] at h
        omega
      rw [List.map_cons, List.cons_append, listEntries, Entry.line_eq,
        Console.write_holding_of_le hline]
      exact ih h

/-- Of entries whose lines do not fit the buffer, one is not written. -/
lemma listEntries_holding_of_lt {text : String} (front : List Entry)
    (rest : List (Except DecodeError Entry)) (htext : text.utf8ByteSize ≤ Console.bufferSize)
    (hfirst : text = "" → ∀ e ∈ front.head?, e.line.utf8ByteSize ≤ Console.bufferSize)
    (h : Console.bufferSize < (text ++ Entry.lines front).utf8ByteSize) :
    ∃ text', listEntries (.holding text) (front.map .ok ++ rest)
      = (.error (.unwritable .storageFull), .holding text') := by
  induction front generalizing text with
  | nil =>
      rw [Entry.lines, List.map_nil, String.join_nil, String.append_empty] at h
      exact absurd h (Nat.not_lt_of_le htext)
  | cons e front ih =>
      rw [List.map_cons, List.cons_append, listEntries, Entry.line_eq]
      rcases Nat.lt_or_ge Console.bufferSize (text ++ e.line).utf8ByteSize with hover | hroom
      · rw [Console.write_holding_of_lt (fun hempty => hfirst hempty e rfl) hover]
        exact ⟨text, rfl⟩
      · rw [Console.write_holding_of_le hroom]
        rw [Entry.lines_cons, ← String.append_assoc] at h
        refine ih hroom (fun hempty => ?_) h
        have hlist := congrArg String.toList hempty
        simp [Entry.toList_line] at hlist

/-- The line of the first entry of a program fits the empty buffer. -/
lemma utf8ByteSize_line_le_of_first (i : Instruction) :
    (Entry.mk 0 i).line.utf8ByteSize ≤ Console.bufferSize := by
  have htext := i.length_text_le
  have hoffset : (Text.hex 5 0).toList.length ≤ 5 := Text.length_hex_le (by norm_num) (by norm_num)
  calc (Entry.mk 0 i).line.utf8ByteSize ≤ 4 * (Entry.mk 0 i).line.toList.length :=
        Text.utf8ByteSize_le _
    _ = 4 * ((Text.hex 5 0).toList.length + (i.text.toList.length + 1 + 1 + 1)) := by
        rw [Entry.toList_line, List.length_append, List.length_cons, List.length_cons,
          List.length_append]
        rfl
    _ ≤ Console.bufferSize := by
        rw [Console.bufferSize]
        omega

/-- What a listing comes to that is followed by an error or by nothing. -/
def listingResult (error? : Option DecodeError) : Except Failure Unit :=
  match error? with
  | none => .ok ()
  | some e => .error (.undecodable e)

/-- The lines of a whole listing, one after the other, on a full device. -/
lemma listEntries_holding {program : Bytes} {instructions : List Instruction}
    {error? : Option DecodeError} (h : Listing.Extent program instructions error?) :
    ∃ text, listEntries (.holding "") (Listing.entries program)
      = (shortfall (Entry.lines (Entry.layout 0 instructions)) (listingResult error?),
        .holding text) := by
  have hempty : "" ++ Entry.lines (Entry.layout 0 instructions)
      = Entry.lines (Entry.layout 0 instructions) := String.empty_append
  rw [h.entries_eq]
  rcases Nat.lt_or_ge Console.bufferSize
      (Entry.lines (Entry.layout 0 instructions)).utf8ByteSize with hover | hroom
  · rw [shortfall_of_lt hover]
    refine listEntries_holding_of_lt _ _ (Nat.zero_le _) (fun _ e hmem => ?_) (by rwa [hempty])
    cases instructions with
    | nil => cases hmem
    | cons i rest =>
        obtain rfl : Entry.mk 0 i = e := Option.some.inj hmem
        exact utf8ByteSize_line_le_of_first i
  · rw [listEntries_holding_of_le _ _ (by rwa [hempty]), hempty]
    cases error? with
    | some e =>
        rw [listingResult, shortfall_error hroom]
        exact ⟨_, rfl⟩
    | none =>
        rw [listingResult, shortfall_ok hroom, Listing.rear, Option.map_none,
          Option.toList_none, listEntries]
        by_cases hlines : Entry.lines (Entry.layout 0 instructions) = ""
        · rw [if_pos hlines, hlines, Console.flush_holding_empty]
          exact ⟨_, rfl⟩
        · rw [if_neg hlines, Console.flush_holding_of_ne hlines]
          exact ⟨_, rfl⟩

/-- **A listing** on a full device: what is left of its result without its
lines. -/
lemma list_holding {program : Bytes} {instructions : List Instruction} {error? : Option DecodeError}
    (h : Listing.Extent program instructions error?) (j : Journal) :
    ∃ text, list program (.blank .full) j
      = ⟨shortfall (Entry.lines (Entry.layout 0 instructions)) (listingResult error?),
        .holding text, j⟩ := by
  obtain ⟨text, hlist⟩ := listEntries_holding h
  have hblank : Console.blank .full = .holding "" := rfl
  exact ⟨text, by rw [list, hblank, hlist]⟩

/-! ### Runs -/

/-- What a run comes to on a full device, put in terms of what the machine prints on
a roll, which takes every word. -/
inductive RunsTo (m : Machine) : Except Failure Unit → Prop
  /-- The run comes to an end, and its words are lost. -/
  | ended {out : Outcome Unit Roll} (h : m.Returns Roll.blank out) :
      RunsTo m (shortfall (Word.lines out.sink.words) (out.answer.mapError .faulted))
  /-- The lines do not fit the buffer, whether or not the run comes to an end. -/
  | overrun {n : ℕ} (h : m.Overruns n) : RunsTo m (.error (.unwritable .storageFull))

variable {limits : Limits} {program : Bytes} {m : Machine}

/-- The lines of words are empty only if there are no words. -/
lemma lines_eq_empty_iff {words : List Word} : Word.lines words = "" ↔ words = [] :=
  Word.lines_injective.eq_iff' rfl

/-- The verdict on a run whose lines fit the buffer. -/
lemma verdict_holding {r : Roll} (hroom : r.bytes ≤ Console.bufferSize)
    {answer : Except Fault Unit} (hanswer : ∀ offset, answer ≠ .error (.outputRefused offset)) :
    verdict answer (Printer.holding r).finish
      = shortfall (Word.lines r.words) (answer.mapError .faulted) := by
  rw [Printer.finish_holding]
  cases answer with
  | error fault =>
      change _ = shortfall (Word.lines r.words) (.error (.faulted fault))
      rw [shortfall_error hroom]
      cases fault with
      | outputRefused offset => exact absurd rfl (hanswer offset)
      | _ => rfl
  | ok u =>
      change _ = shortfall (Word.lines r.words) (.ok ())
      rw [shortfall_ok hroom]
      by_cases h : Word.lines r.words = ""
      · rw [if_pos h, h, Console.flush_holding_empty]
        rfl
      · rw [if_neg h, Console.flush_holding_of_ne h]
        rfl

/-- A run with a roll does not fault because of it. -/
lemma answer_ne_outputRefused (hload : Machine.load .standard limits program = .ok m)
    {out : Outcome Unit Roll} (h : m.Returns Roll.blank out) (offset : ℕ) :
    out.answer ≠ .error (.outputRefused offset) := by
  intro hanswer
  obtain ⟨n, hends, -, -⟩ := (Machine.returns_iff_of_load hload).mp h
  have hready : m.status = .ready := by
    rw [(Machine.load_eq_ok_iff.mp hload).2.2]
    rfl
  have hne := Machine.status_steps_ne_outputRefused (.of_load hload) hready Roll.blank n offset
  generalize (m.steps Roll.blank n).machine.status = status at hends hne
  rw [hanswer] at hends
  cases status with
  | ready => cases hends
  | stopped => cases hends
  | faulted fault =>
      cases hends
      exact hne rfl

/-- **What a run comes to**, and only that, is the verdict on it with a printer on a
full device. -/
theorem runsTo_iff (hload : Machine.load .standard limits program = .ok m)
    {result : Except Failure Unit} :
    RunsTo m result ↔ ∃ out, m.Returns (Printer.onto (.blank .full)) out ∧
      verdict out.answer out.sink.finish = result := by
  have hoverrun : ∀ n, m.Overruns n → ∃ out, m.Returns (Printer.onto (.blank .full)) out ∧
      verdict out.answer out.sink.finish = .error (.unwritable .storageFull) := fun n hn =>
    ⟨_, Machine.returns_holding_of_overruns hload hn, rfl⟩
  constructor
  · intro h
    cases h with
    | @ended out h =>
        rcases Nat.lt_or_ge Console.bufferSize out.sink.bytes with hover | hroom
        · obtain ⟨n, -, -, hsink⟩ := (Machine.returns_iff_of_load hload).mp h
          obtain ⟨k, hk⟩ := Machine.exists_overruns (hsink ▸ hover)
          rw [shortfall_of_lt hover]
          exact hoverrun k hk
        · exact ⟨_, Machine.returns_holding_of_le hload h hroom,
            verdict_holding hroom (answer_ne_outputRefused hload h)⟩
    | overrun h => exact hoverrun _ h
  · rintro ⟨out, h, rfl⟩
    rcases Machine.returns_holding_cases hload h with ⟨out', h', hroom, rfl⟩ | ⟨n, hn, rfl⟩
    · dsimp only
      rw [verdict_holding hroom (answer_ne_outputRefused hload h')]
      exact .ended h'
    · exact .overrun hn

/-- A run comes to one result. -/
lemma RunsTo.unique (hload : Machine.load .standard limits program = .ok m)
    {result result' : Except Failure Unit} (h : RunsTo m result) (h' : RunsTo m result') :
    result = result' := by
  obtain ⟨out, hout, rfl⟩ := (runsTo_iff hload).mp h
  obtain ⟨out', hout', rfl⟩ := (runsTo_iff hload).mp h'
  rw [hout.unique hout']

/-- A run comes to success exactly if the machine stops without having printed. -/
lemma runsTo_ok_iff :
    RunsTo m (.ok ()) ↔ ∃ out : Outcome Unit Roll, m.Returns Roll.blank out ∧
      out.answer = .ok () ∧ out.sink.words = [] := by
  constructor
  · intro h
    generalize hresult : (Except.ok () : Except Failure Unit) = result at h
    cases h with
    | @ended out h =>
        obtain ⟨hlines, hanswer⟩ := shortfall_eq_ok_iff.mp hresult.symm
        refine ⟨out, h, ?_, lines_eq_empty_iff.mp hlines⟩
        cases hout : out.answer with
        | ok u => rfl
        | error fault =>
            rw [hout] at hanswer
            cases hanswer
    | overrun h => cases hresult
  · rintro ⟨out, h, hanswer, hwords⟩
    have hended := RunsTo.ended h
    rwa [shortfall_eq_ok_iff.mpr ⟨lines_eq_empty_iff.mpr hwords, by rw [hanswer]; rfl⟩] at hended

/-- A refused word is never reported as the fault that it is to the machine. -/
lemma RunsTo.ne_outputRefused (hload : Machine.load .standard limits program = .ok m)
    {result : Except Failure Unit} (h : RunsTo m result) (offset : ℕ) :
    result ≠ .error (.faulted (.outputRefused offset)) := by
  cases h with
  | @ended out h =>
      intro hresult
      have hanswer := (eq_or_of_shortfall_eq_error hresult).resolve_left (by rintro ⟨⟩)
      cases hout : out.answer with
      | ok u =>
          rw [hout] at hanswer
          cases hanswer
      | error fault =>
          rw [hout] at hanswer
          cases hanswer
          exact answer_ne_outputRefused hload h offset hout
  | overrun h => rintro ⟨⟩

/-- The console that a run on a full device leaves still holds what was written. -/
lemma console_of_returns (hload : Machine.load .standard limits program = .ok m)
    {out : Outcome Unit Printer} (h : m.Returns (Printer.onto (.blank .full)) out) :
    ∃ text, out.sink.console = .holding text ∧
      (out.sink.finish = .ok (.holding text) ∨ ∃ e, out.sink.finish = .error e) := by
  rcases Machine.returns_holding_cases hload h with ⟨out', -, -, rfl⟩ | ⟨n, -, rfl⟩
  · refine ⟨Word.lines out'.sink.words, rfl, ?_⟩
    rw [Printer.finish_holding]
    by_cases hlines : Word.lines out'.sink.words = ""
    · rw [hlines]
      exact .inl Console.flush_holding_empty
    · exact .inr ⟨_, Console.flush_holding_of_ne hlines⟩
  · exact ⟨_, rfl, .inr ⟨_, rfl⟩⟩

/-- **The ending of a run** on a full device. -/
lemma play_full (hload : Machine.load .standard limits program = .ok m) {j : Journal}
    (hj : j.Sound v) (fuel : ℕ) :
    Option.Rel (fun out e => ∃ text, e.result = verdict out.answer out.sink.finish ∧
        e.console = .holding text ∧ e.journal.Sound v)
      (m.run fuel (Printer.onto (.blank .full))) (play fuel limits program (.blank .full) j) := by
  have hnote : ∀ (j : Journal) (e : Event), j.Sound v → (j.noteEvent e).Sound v :=
    fun _ e hj => hj.note (.event e)
  have hfst := Machine.runNoting_fst Journal.noteEvent fuel m (Printer.onto (.blank .full))
    (j.noteEvent m.loadEvent)
  rw [play, hload]
  dsimp only
  rw [← hfst]
  cases hrun : m.runNoting Journal.noteEvent fuel (Printer.onto (.blank .full))
      (j.noteEvent m.loadEvent) with
  | none => exact .none
  | some found =>
      obtain ⟨out, j'⟩ := found
      rw [hrun] at hfst
      have hsound : j'.Sound v :=
        Machine.driveNoting_log hnote hrun (hnote _ _ (hnote _ _ hj))
      obtain ⟨text, hconsole, hfinish⟩ := console_of_returns hload ⟨fuel, hfst.symm⟩
      refine .some ⟨text, rfl, ?_, hsound⟩
      dsimp only
      rcases hfinish with hfinish | ⟨e, hfinish⟩
      · rw [hfinish]
      · rw [hfinish]
        exact hconsole

/-! ### The command -/

variable {host : Host} {arguments : List String} {a : Arguments}

/-- The report of a command that lists its program on a full device. -/
lemma Reads.report_list_full (h : Reads host arguments a program) (hdevice : host.device = .full)
    (hlisting : a.listing = true) {instructions : List Instruction} {error? : Option DecodeError}
    (hextent : Listing.Extent program instructions error?) (fuel : ℕ) :
    ∃ r, report fuel host arguments = some r ∧ Tells a.verbosity host.colour
      (shortfall (Entry.lines (Entry.layout 0 instructions)) (listingResult error?)) r := by
  have hsound := (Journal.sound_blank a.verbosity).note (.read program.size a.program)
  obtain ⟨text, hlist⟩ := list_holding hextent
    ((Journal.blank a.verbosity).note (.read program.size a.program))
  rw [h.report_eq, h.execute_eq, hdevice]
  dsimp only
  rw [if_pos hlisting, hlist]
  exact ⟨_, rfl, tells_report hsound _ text⟩

/-- The report of a command whose program does not fit the memory. -/
lemma Reads.report_too_large (h : Reads host arguments a program) (hdevice : host.device = .full)
    (hrun : a.listing = false) (hlarge : a.limits.memorySize < program.size) (fuel : ℕ) :
    ∃ r, report fuel host arguments = some r ∧ Tells a.verbosity host.colour
      (.error (.unloadable (.programTooLarge program.size a.limits.memorySize))) r := by
  have hsound := (Journal.sound_blank a.verbosity).note (.read program.size a.program)
  have hcheck : a.limits.check .standard = .ok () := Limits.check_eq_ok_iff.mpr h.limits
  have hload : Machine.load .standard a.limits program
      = .error (.programTooLarge program.size a.limits.memorySize) := by
    rw [Machine.load, hcheck]
    exact if_pos hlarge
  rw [h.report_eq, h.execute_eq, hdevice]
  dsimp only
  rw [hrun, if_neg Bool.false_ne_true, play, hload]
  exact ⟨_, rfl, tells_report hsound _ ""⟩

/-- **The report of a command that runs its program** on a full device: there is one
when the run with a printer on that device comes to an end, and it tells of the
verdict on that run. -/
lemma Reads.report_run_full (h : Reads host arguments a program) (hdevice : host.device = .full)
    (hrun : a.listing = false) (hload : Machine.load .standard a.limits program = .ok m)
    (fuel : ℕ) :
    Option.Rel (fun out r => Tells a.verbosity host.colour (verdict out.answer out.sink.finish) r)
      (m.run fuel (Printer.onto (.blank .full))) (report fuel host arguments) := by
  have hsound := (Journal.sound_blank a.verbosity).note (.read program.size a.program)
  have hplay := play_full hload hsound fuel
  rw [h.report_eq, h.execute_eq, hdevice]
  dsimp only
  rw [hrun, if_neg Bool.false_ne_true]
  generalize m.run fuel (Printer.onto (.blank .full)) = out? at hplay ⊢
  generalize play fuel a.limits program (.blank .full) _ = ending? at hplay ⊢
  cases hplay with
  | none => exact .none
  | @some out e hending =>
      obtain ⟨text, hresult, hconsole, hjournal⟩ := hending
      obtain ⟨result, console, j⟩ := e
      dsimp only at hresult hconsole hjournal
      subst hresult hconsole
      exact .some (tells_report hjournal _ text)

/-- What is reported comes from a run with a printer on the full device. -/
lemma Reads.exists_of_report_run_full (h : Reads host arguments a program)
    (hdevice : host.device = .full) (hrun : a.listing = false)
    (hload : Machine.load .standard a.limits program = .ok m) {fuel : ℕ} {r : Report}
    (hr : report fuel host arguments = some r) :
    ∃ out, m.Returns (Printer.onto (.blank .full)) out ∧
      Tells a.verbosity host.colour (verdict out.answer out.sink.finish) r := by
  have hrel := h.report_run_full hdevice hrun hload fuel
  rw [hr] at hrel
  cases hout : m.run fuel (Printer.onto (.blank .full)) with
  | none =>
      rw [hout] at hrel
      cases hrel
  | some out =>
      rw [hout] at hrel
      cases hrel with
      | some htells => exact ⟨out, ⟨fuel, hout⟩, htells⟩

/-- A run with a printer on the full device that comes to an end is reported. -/
lemma Reads.exists_report_of_returns (h : Reads host arguments a program)
    (hdevice : host.device = .full) (hrun : a.listing = false)
    (hload : Machine.load .standard a.limits program = .ok m) {out : Outcome Unit Printer}
    (hout : m.Returns (Printer.onto (.blank .full)) out) :
    ∃ fuel r, report fuel host arguments = some r := by
  obtain ⟨fuel, hfuel⟩ := hout
  have hrel := h.report_run_full hdevice hrun hload fuel
  rw [hfuel] at hrel
  cases hr : report fuel host arguments with
  | none =>
      rw [hr] at hrel
      cases hrel
  | some r => exact ⟨fuel, r, hr⟩

/-- A listing has no lines and no error only of the empty program. -/
lemma shortfall_listing_eq_ok_iff {instructions : List Instruction} {error? : Option DecodeError}
    (h : Listing.Extent program instructions error?) :
    shortfall (Entry.lines (Entry.layout 0 instructions)) (listingResult error?) = .ok () ↔
      program.size = 0 := by
  have hlines : Entry.lines (Entry.layout 0 instructions) = "" ↔ instructions = [] := by
    refine (Entry.lines_injective.eq_iff' (rfl : Entry.lines [] = "")).trans ?_
    cases instructions with
    | nil => exact iff_of_true rfl rfl
    | cons i rest => exact iff_of_false (by rintro ⟨⟩) (by rintro ⟨⟩)
  rw [shortfall_eq_ok_iff, hlines, ← Array.length_toList]
  cases h with
  | whole h =>
      have hsize := Listing.length_le_length_flatMap_encode instructions
      rw [h]
      constructor
      · rintro ⟨rfl, -⟩
        rfl
      · intro hzero
        exact ⟨List.length_eq_zero_iff.mp (by omega), rfl⟩
  | broken _ hlt _ =>
      rw [← Array.length_toList] at hlt
      refine iff_of_false (fun hresult => ?_) (by omega)
      cases hresult.2

/-- **No lost output is reported as success**, on a device that takes nothing.

A program that does not fit the memory is reported as such. Any other program is
loaded and run, and a report tells of the one result that its run comes to. It is
success exactly if the machine stops without having printed. The word whose line
does not fit the buffer is refused and stays on the stack of a machine that has
faulted at its `PRINT`, but that fault is never what is reported.

A listing is reported by the first of its lines that does not fit the buffer or by
the error behind them, whichever comes first, and else by the lines that the
device does not take in the end, so that it is success of the empty program
alone. -/
theorem lost_output_is_reported (h : Reads host arguments a program)
    (hdevice : host.device = .full) :
    (a.listing = false → a.limits.memorySize < program.size → ∀ fuel, ∃ r,
      report fuel host arguments = some r ∧ Tells a.verbosity host.colour
        (.error (.unloadable (.programTooLarge program.size a.limits.memorySize))) r) ∧
    (a.listing = false → program.size ≤ a.limits.memorySize →
      ∃ m, Machine.load ⟨256, 16, 65536⟩ a.limits program = .ok m ∧
        (∀ fuel r, report fuel host arguments = some r →
          (∃ result, RunsTo m result ∧ Tells a.verbosity host.colour result r) ∧
            (r.exitCode = 0 ↔ ∃ out : Outcome Unit Roll, m.Returns Roll.blank out ∧
              out.answer = .ok () ∧ out.sink.words = [])) ∧
        (∀ result, RunsTo m result →
          (∃ fuel r, report fuel host arguments = some r) ∧
            (∀ result', RunsTo m result' → result' = result) ∧
            ∀ offset, result ≠ .error (.faulted (.outputRefused offset))) ∧
        ∀ n, m.Overruns n →
          let stuck := (m.steps Roll.blank n).machine
          ∃ v printer, (m.steps Roll.blank (n + 1)).sink = (m.steps Roll.blank n).sink.add v ∧
            stuck.top? = some v ∧ Instruction.print.StandsAt stuck.code.toList stuck.ip ∧
            m.Returns (Printer.onto (.blank .full)) ⟨.error (.outputRefused stuck.ip),
              stuck.withStatus (.faulted (.outputRefused stuck.ip)), printer⟩) ∧
    (a.listing = true → ∃ (instructions : List Instruction) (error? : Option DecodeError),
      Listing.Extent program instructions error? ∧ ∀ fuel, ∃ r,
        report fuel host arguments = some r ∧
          Tells a.verbosity host.colour
            (shortfall (Entry.lines (Entry.layout 0 instructions)) (listingResult error?)) r ∧
          (r.exitCode = 0 ↔ program.size = 0)) := by
  refine ⟨fun hrun hlarge fuel => h.report_too_large hdevice hrun hlarge fuel,
    fun hrun hsize => ?_, fun hlisting => ?_⟩
  · have hload : Machine.load .standard a.limits program
        = .ok (.fresh .standard a.limits program) :=
      Machine.load_eq_ok_iff.mpr ⟨h.limits, hsize, rfl⟩
    refine ⟨_, hload, fun fuel r hr => ?_, fun result hresult => ⟨?_, ?_, ?_⟩, fun n hn => ?_⟩
    · obtain ⟨out, hout, htells⟩ := h.exists_of_report_run_full hdevice hrun hload hr
      have hresult : RunsTo _ (verdict out.answer out.sink.finish) :=
        (runsTo_iff hload).mpr ⟨out, hout, rfl⟩
      refine ⟨⟨_, hresult, htells⟩, ?_⟩
      rw [htells.exitCode_eq_zero_iff, ← runsTo_ok_iff]
      exact ⟨fun hok => hok ▸ hresult, fun hok => hresult.unique hload hok⟩
    · obtain ⟨out, hout, -⟩ := (runsTo_iff hload).mp hresult
      exact h.exists_report_of_returns hdevice hrun hload hout
    · exact fun result' hresult' => hresult'.unique hload hresult
    · exact hresult.ne_outputRefused hload
    · obtain ⟨v, hsink, htop, hstands, -⟩ := hn.steps_holding (.of_load hload)
      exact ⟨v, _, hsink, htop, hstands, Machine.returns_holding_of_overruns hload hn⟩
  · obtain ⟨instructions, error?, hextent⟩ := Listing.exists_extent program
    refine ⟨instructions, error?, hextent, fun fuel => ?_⟩
    obtain ⟨r, hr, htells⟩ := h.report_list_full hdevice hlisting hextent fuel
    exact ⟨r, hr, htells,
      htells.exitCode_eq_zero_iff.trans (shortfall_listing_eq_ok_iff hextent)⟩

/-! ### Programs that print -/

section Printing

variable {v : Word}

/-- A word is put on the stack, and then printed. -/
lemma steps_push_print (h : m.WellFormed) (hready : m.status = .ready)
    (hcode : m.code.Holds m.ip [.push v, .print]) (hroom : m.depth < m.limits.stackSize)
    (r : Roll) :
    m.steps r 1 = ⟨[.ok .ready], { m with ip := m.ip + 5, stack := v :: m.stack }, r⟩ ∧
      m.steps r 2 = ⟨[.ok .ready, .ok .ready], { m with ip := m.ip + 6 }, r.add v⟩ := by
  obtain ⟨hpush, hrest⟩ := hcode.of_cons
  let pushed : Machine := { m with ip := m.ip + 5, stack := v :: m.stack }
  have hpushed : m.LeadsTo r 1 pushed :=
    Machine.leadsTo_after h hready hpush (if_pos hroom) rfl r
  have heffect : pushed.nextEffect
      = .ok (some { stack := m.stack, ip := m.ip + 6, deed := .print v }) :=
    Machine.nextEffect_of_decodeAt (hpushed.wellFormed h) hrest.of_cons.1
  have hprinted := Machine.step_of_taken (hpushed.wellFormed h) hready heffect rfl
    (rfl : Sink.print r v = .ok (r.add v))
  refine ⟨hpushed, ?_⟩
  rw [Machine.LeadsTo] at hpushed
  rw [Machine.steps, hpushed]
  dsimp only
  rw [hprinted]
  rfl

/-- A machine puts a word on its stack, prints it, and stands where it stood before. -/
structure Repeats (m pushed : Machine) (v : Word) : Prop where
  push (r : Roll) : m.steps r 1 = ⟨[.ok .ready], pushed, r⟩
  print (r : Roll) : (m.steps r 2).sink = r.add v
  jump (r : Roll) : m.steps r 3 = ⟨[.ok .ready, .ok .ready, .ok .ready], m, r.add v⟩

variable {pushed : Machine}

/-- So many rounds write so many lines. -/
lemma Repeats.steps (h : Repeats m pushed v) (n : ℕ) :
    (m.steps Roll.blank (3 * n)).machine = m ∧
      (m.steps Roll.blank (3 * n)).sink.bytes = (Printer.line v).utf8ByteSize * n := by
  induction n with
  | zero => exact ⟨rfl, rfl⟩
  | succ n ih =>
      obtain ⟨hmachine, hbytes⟩ := ih
      rw [Nat.mul_succ, Machine.steps_add, hmachine, h.jump]
      dsimp only
      rw [Roll.bytes_add, hbytes, Nat.mul_succ]
      exact ⟨rfl, rfl⟩

/-- A word whose line would be one too many is refused in the round that prints it. -/
lemma Repeats.overruns (h : Repeats m pushed v) {n : ℕ}
    (hle : (Printer.line v).utf8ByteSize * n ≤ Console.bufferSize)
    (hlt : Console.bufferSize < (Printer.line v).utf8ByteSize * (n + 1)) :
    m.Overruns (3 * n + 1) ∧ (m.steps Roll.blank (3 * n + 1)).machine = pushed := by
  obtain ⟨hmachine, hbytes⟩ := h.steps n
  have hbefore := Machine.steps_add m Roll.blank (3 * n) 1
  have hafter := Machine.steps_add m Roll.blank (3 * n) 2
  rw [hmachine] at hbefore hafter
  rw [h.push] at hbefore
  refine ⟨⟨?_, ?_⟩, by rw [hbefore]⟩
  · rwa [hbefore, hbytes]
  · rw [hafter]
    dsimp only
    rwa [h.print, Roll.bytes_add, hbytes, ← Nat.mul_succ]

/-- The machine that has just loaded `PUSH -2147483648`, `PRINT` and `JMP 0`. -/
def chatting : Machine :=
  .fresh .standard .standard #[1, 0, 0, 0, 128, 12, 5, 0, 0]

/-- The program fits an ordinary machine. -/
lemma load_chatting :
    Machine.load .standard .standard #[1, 0, 0, 0, 128, 12, 5, 0, 0] = .ok chatting :=
  Machine.load_eq_ok_iff.mpr ⟨fun r => by cases r <;> decide, by decide, rfl⟩

/-- The program prints its word again and again. -/
lemma repeats_chatting :
    Repeats chatting { chatting with ip := 5, stack := [-2147483648] } (-2147483648) := by
  have hcode : chatting.code.Holds 0 ([.push (-2147483648), .print] ++ [.jmp 0]) := by
    rw [Code.Holds, chatting, Reference.toList_code_fresh (by decide) (by decide)]
    exact ⟨_, rfl⟩
  obtain ⟨hprint, hjump⟩ := hcode.of_append
  have hstart : chatting.WellFormed := .of_load load_chatting
  have hsteps := steps_push_print hstart rfl hprint (by decide)
  refine ⟨fun r => (hsteps r).1, fun r => by rw [(hsteps r).2], fun r => ?_⟩
  have hafter := hstart.steps r 2
  rw [(hsteps r).2] at hafter
  rw [Machine.steps, (hsteps r).2]
  dsimp only
  rw [Machine.step_of_decodeAt hafter rfl hjump.of_cons.1]
  rfl

/-- After 682 lines of twelve bytes there is no room for another one. -/
lemma overruns_chatting :
    chatting.Overruns (3 * 682 + 1) ∧ (chatting.steps Roll.blank (3 * 682 + 1)).machine =
      { chatting with ip := 5, stack := [-2147483648] } := by
  have hline : (Printer.line (-2147483648)).utf8ByteSize = 12 := by decide +kernel
  exact repeats_chatting.overruns (by rw [hline]; decide) (by rw [hline]; decide)

/-- The machine that has just loaded `PUSH 7`, `PRINT` and `STOP`. -/
def counting : Machine :=
  .fresh .standard .standard #[1, 7, 0, 0, 0, 12, 13]

/-- The program fits an ordinary machine. -/
lemma load_counting :
    Machine.load .standard .standard #[1, 7, 0, 0, 0, 12, 13] = .ok counting :=
  Machine.load_eq_ok_iff.mpr ⟨fun r => by cases r <;> decide, by decide, rfl⟩

/-- The program prints its word once, and stops. -/
lemma returns_counting :
    counting.Returns Roll.blank
      ⟨.ok (), { counting with ip := 6, status := .stopped }, Roll.blank.add 7⟩ := by
  have hcode : counting.code.Holds 0 ([.push 7, .print] ++ [.stop]) := by
    rw [Code.Holds, counting, Reference.toList_code_fresh (by decide) (by decide)]
    exact ⟨_, rfl⟩
  obtain ⟨hprint, hstop⟩ := hcode.of_append
  have hstart : counting.WellFormed := .of_load load_counting
  obtain ⟨-, hsteps⟩ := steps_push_print hstart rfl hprint (by decide) Roll.blank
  have hafter := hstart.steps Roll.blank 2
  rw [hsteps] at hafter
  have hlast : counting.steps Roll.blank 3 = ⟨[.ok .ready, .ok .ready, .ok .stopped],
      { counting with ip := 6, status := .stopped }, Roll.blank.add 7⟩ := by
    rw [Machine.steps, hsteps]
    dsimp only
    rw [Machine.step_of_decodeAt hafter rfl hstop.of_cons.1]
    rfl
  refine (Machine.returns_iff_of_load load_counting).mpr ⟨3, ?_, by rw [hlast], by rw [hlast]⟩
  rw [hlast]
  exact .stopped

end Printing

/-- A listing of one line, a run that stops with one line in the buffer and a run that
writes too many lines: what they write is lost, which is the only thing to report. The
last machine has faulted at its `PRINT`, with the word on its stack. -/
theorem lost_output_is_reported_of_listing_and_runs :
    let full (program : Bytes) : Host := ⟨fun _ => .ok program, .full, true⟩
    let lost : Report :=
      ⟨1, "", "bci: error writing output: No space left on device (os error 28)\n"⟩
    report 0 (full #[13]) ["-d", "a.bin"] = some lost ∧
      (∃ fuel, report fuel (full #[1, 7, 0, 0, 0, 12, 13]) ["a.bin"] = some lost) ∧
      (∃ fuel, report fuel (full #[1, 0, 0, 0, 128, 12, 5, 0, 0]) ["a.bin"] = some lost) ∧
      ∃ printer, chatting.Returns (Printer.onto (.blank .full))
        ⟨.error (.outputRefused 5), { chatting with
          ip := 5
          stack := [-2147483648]
          status := .faulted (.outputRefused 5) }, printer⟩ := by
  intro full lost
  have hlists : Reads (full #[13]) ["-d", "a.bin"] ⟨"a.bin", .standard, true, .upTo .warn⟩ #[13] :=
    ⟨by decide +kernel, fun r => by cases r <;> decide, rfl⟩
  have hreads (program : Bytes) :
      Reads (full program) ["a.bin"] ⟨"a.bin", .standard, false, .upTo .warn⟩ program :=
    ⟨by decide +kernel, fun r => by cases r <;> decide, rfl⟩
  have hlost {r : Report}
      (h : Tells (.upTo .warn) true (.error (.unwritable .storageFull)) r) : r = lost := by
    rw [h.eq_complaint rfl]
    decide +kernel
  -- of a run it is enough to know that it comes to this result
  have hrun {program : Bytes} {m : Machine} (hsize : program.size ≤ 65536)
      (hload : Machine.load .standard .standard program = .ok m)
      (h : RunsTo m (.error (.unwritable .storageFull))) :
      ∃ fuel, report fuel (full program) ["a.bin"] = some lost := by
    obtain ⟨-, hruns, -⟩ := lost_output_is_reported (hreads program) rfl
    obtain ⟨m', hload', hreports, hresults, -⟩ := hruns rfl hsize
    cases hload.symm.trans hload'
    obtain ⟨⟨fuel, r, hr⟩, hunique, -⟩ := hresults _ h
    obtain ⟨⟨result, hresult, htells⟩, -⟩ := hreports fuel r hr
    rw [hunique result hresult] at htells
    exact ⟨fuel, by rw [hr, hlost htells]⟩
  refine ⟨?_, ?_, hrun (by decide) load_chatting (.overrun overruns_chatting.1), ?_⟩
  · have hencoded : (#[13] : Bytes).toList = [Instruction.stop].flatMap Instruction.encode := by
      decide
    obtain ⟨-, -, hlisting⟩ := lost_output_is_reported hlists rfl
    obtain ⟨instructions, error?, hextent, hreport⟩ := hlisting rfl
    obtain rfl : error? = none := hextent.error?_eq_none_iff.mpr ⟨_, hencoded⟩
    obtain rfl : instructions = [.stop] := by
      cases hextent with
      | whole h => exact Listing.flatMap_encode_injective (h.symm.trans hencoded)
    obtain ⟨r, hr, htells, -⟩ := hreport 0
    have hlines : Entry.lines (Entry.layout 0 [.stop]) ≠ "" := Entry.lines_cons_ne_nil _ _
    rw [listingResult, shortfall_ok_of_ne hlines] at htells
    rw [hr, hlost htells]
  · have hended := RunsTo.ended returns_counting
    rw [show Except.mapError Failure.faulted (.ok ()) = .ok () from rfl,
      shortfall_ok_of_ne (lines_eq_empty_iff.not.mpr (by simp [Roll.add]))] at hended
    exact hrun (by decide) load_counting hended
  · obtain ⟨hover, hstuck⟩ := overruns_chatting
    obtain ⟨-, hruns, -⟩ := lost_output_is_reported (hreads #[1, 0, 0, 0, 128, 12, 5, 0, 0]) rfl
    obtain ⟨m, hload, -, -, hfaults⟩ := hruns rfl (by decide)
    cases load_chatting.symm.trans hload
    obtain ⟨v, printer, -, -, -, hreturns⟩ := hfaults _ hover
    rw [hstuck] at hreturns
    exact ⟨printer, hreturns⟩

end Command

end Bytecode
