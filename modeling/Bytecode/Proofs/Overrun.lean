/-
A run whose printed words are buffered in front of a device that takes nothing.

* `Console.holding`: a console on a full device, with all that has been written
  in its buffer. A line is written as long as there is room for it;
* `Roll.bytes`: how many bytes the lines of the words on a roll take;
* `steps_holding`: as long as the lines fit the buffer, steps come to the same
  with the printer as with a roll;
* `Machine.Overruns`: the step that prints the first word whose line does not fit.
  There the printer refuses it, and nothing else changes (`Overruns.steps_holding`);
* `returns_holding_cases` (**runs on a full device**): the runs with a roll whose
  lines fit, and those that a refused word ends.
-/
import Mathlib
import Bytecode.Proofs.Legibility
import Bytecode.Proofs.Offering
import Bytecode.Proofs.Printing

namespace Bytecode

/-! ### A console on a full device -/

namespace Command

/-- The line of a word fits the empty buffer. -/
lemma Printer.utf8ByteSize_line_le (v : Word) : (line v).utf8ByteSize ≤ Console.bufferSize := by
  have hlength := v.length_text_le
  calc (line v).utf8ByteSize ≤ 4 * (line v).toList.length := Text.utf8ByteSize_le _
    _ = 4 * (v.text.toList.length + 1) := by
        rw [line, String.toList_append, List.length_append]
        rfl
    _ ≤ Console.bufferSize := by
        rw [Console.bufferSize]
        omega

namespace Console

/-- A console on a full device that has taken nothing. -/
def holding (text : String) : Console :=
  ⟨.full, "", text⟩

variable {text line : String}

/-- A line for which there is room is written. -/
lemma write_holding_of_le (h : (text ++ line).utf8ByteSize ≤ bufferSize) :
    (holding text).write line = .ok (holding (text ++ line)) := by
  rw [String.utf8ByteSize_append] at h
  exact if_pos h

/-- An empty buffer has nothing to get out. -/
lemma flush_holding_empty : (holding "").flush = .ok (holding "") :=
  if_pos rfl

/-- What the buffer holds does not get out. -/
lemma flush_holding_of_ne (h : text ≠ "") : (holding text).flush = .error .storageFull :=
  if_neg h

/-- Nothing is delivered in the end. -/
lemma delivered_close_holding (text : String) : (holding text).close.delivered = "" := by
  rw [close]
  by_cases h : text = ""
  · rw [h, flush_holding_empty]
    rfl
  · rw [flush_holding_of_ne h]
    rfl

/-- A line for which there is no room is not written, because the device does not
take what is in front of it. -/
lemma write_holding_of_lt (hline : text = "" → line.utf8ByteSize ≤ bufferSize)
    (h : bufferSize < (text ++ line).utf8ByteSize) :
    (holding text).write line = .error .storageFull := by
  have hne : text ≠ "" := by
    rintro rfl
    rw [String.empty_append] at h
    exact absurd (hline rfl) (Nat.not_le_of_lt h)
  have hroom : ¬ (holding text).pending.utf8ByteSize + line.utf8ByteSize ≤ bufferSize := by
    rw [String.utf8ByteSize_append] at h
    exact Nat.not_le_of_lt h
  rw [write, if_neg hroom, flush_holding_of_ne hne]

end Console

end Command

/-! ### A printer on a full device -/

namespace Roll

/-- How many bytes the lines of the words take. -/
def bytes (r : Roll) : ℕ :=
  (Word.lines r.words).utf8ByteSize

variable {r : Roll} {v : Word}

/-- The lines with that of another word. -/
lemma lines_add (r : Roll) (v : Word) :
    Word.lines (r.add v).words = Word.lines r.words ++ Command.Printer.line v := by
  rw [add, Word.lines_append, Word.lines_singleton]

/-- Another word takes the bytes of its line. -/
lemma bytes_add (r : Roll) (v : Word) :
    (r.add v).bytes = r.bytes + (Command.Printer.line v).utf8ByteSize := by
  rw [bytes, lines_add, String.utf8ByteSize_append, bytes]

end Roll

namespace Command.Printer

variable {r : Roll} {v : Word}

/-- A printer on a full device, with the lines of the words of a roll in its
buffer. With those of the blank roll it is the printer that a run begins with. -/
def holding (r : Roll) : Printer :=
  ⟨.holding (Word.lines r.words), none⟩

/-- The same printer after it has refused a word. -/
def refusing (r : Roll) : Printer :=
  ⟨.holding (Word.lines r.words), some .storageFull⟩

/-- A printer that has refused nothing finishes with its console. -/
lemma finish_holding (r : Roll) :
    (holding r).finish = (Console.holding (Word.lines r.words)).flush :=
  rfl

/-- A word whose line fits the buffer is taken. -/
lemma print_holding_of_le (h : (r.add v).bytes ≤ Console.bufferSize) :
    (holding r).print v = .ok (holding (r.add v)) := by
  rw [Roll.bytes, Roll.lines_add] at h
  rw [print, holding, Console.write_holding_of_le h, holding, Roll.lines_add]

/-- A word whose line does not fit the buffer is refused. -/
lemma print_holding_of_lt (h : Console.bufferSize < (r.add v).bytes) :
    (holding r).print v = .error (refusing r) := by
  rw [Roll.bytes, Roll.lines_add] at h
  rw [print, holding, Console.write_holding_of_lt (fun _ => utf8ByteSize_line_le v) h, refusing]

end Command.Printer

/-! ### Steps -/

namespace Machine

open Command (Console Printer)

variable {m : Machine} {r : Roll}

/-- What is printed next is the top of the stack, and a `PRINT` stands there. -/
lemma top?_of_nextEffect (h : m.WellFormed) {e : Effect} {v : Word}
    (he : m.nextEffect = .ok (some e)) (hv : e.printed? = some v) :
    m.top? = some v ∧ Instruction.print.StandsAt m.code.toList m.ip := by
  obtain ⟨i, next, hfetch, he⟩ := exists_of_nextEffect he
  obtain ⟨rfl, htop⟩ := eq_print_of_effect he hv
  exact ⟨htop, standsAt_of_fetch h hfetch⟩

/-- A step with a printer on a full device, compared with the step with a roll. -/
inductive Shelves (m : Machine) (r : Roll) : Prop
  /-- Both come to the same. -/
  | kept (hroom : (m.step r).sink.bytes ≤ Console.bufferSize)
      (hstep : m.step (Printer.holding r)
        = ⟨(m.step r).answer, (m.step r).machine, .holding (m.step r).sink⟩)
  /-- A `PRINT` puts the top of the stack on the roll. The printer refuses it, and
  nothing but the status changes. -/
  | refused {v : Word} (htop : m.top? = some v)
      (hstands : Instruction.print.StandsAt m.code.toList m.ip)
      (hsink : (m.step r).sink = r.add v)
      (hover : Console.bufferSize < (m.step r).sink.bytes)
      (hstep : m.step (Printer.holding r) = ⟨.error (.outputRefused m.ip),
        m.withStatus (.faulted (.outputRefused m.ip)), .refusing r⟩)

/-- **One step** with a printer on a full device. -/
theorem shelves_step (h : m.WellFormed) (hr : r.bytes ≤ Console.bufferSize) : Shelves m r := by
  rcases prints_or_silent m with ⟨hready, e, v, he, hv⟩ | hsilent
  · have hroll : m.step r = ⟨.ok .ready, m.after e, r.add v⟩ := step_of_taken h hready he hv rfl
    rcases Nat.lt_or_ge Console.bufferSize (r.add v).bytes with hover | hroom
    · obtain ⟨htop, hstands⟩ := top?_of_nextEffect h he hv
      refine .refused htop hstands (by rw [hroll]) (by rwa [hroll]) ?_
      exact step_of_refused h hready he hv (Printer.print_holding_of_lt hover)
    · refine .kept (by rwa [hroll]) ?_
      rw [hroll]
      exact step_of_taken h hready he hv (Printer.print_holding_of_le hroom)
  · obtain ⟨hsink, hstep⟩ := step_of_silent h hsilent r (Printer.holding r)
    refine .kept ?_ ?_
    · rwa [hsink]
    · rw [hstep, hsink]

/-- A step takes no word off a roll. -/
lemma bytes_le_step (h : m.WellFormed) (r : Roll) : r.bytes ≤ (m.step r).sink.bytes := by
  rcases prints_or_silent m with ⟨hready, e, v, he, hv⟩ | hsilent
  · have hroll : m.step r = ⟨.ok .ready, m.after e, r.add v⟩ := step_of_taken h hready he hv rfl
    rw [hroll]
    exact (Nat.le_add_right _ _).trans_eq (r.bytes_add v).symm
  · rw [(step_of_silent h hsilent r r).1]

/-! ### Several steps -/

/-- More steps print more. -/
lemma monotone_bytes_steps (h : m.WellFormed) (r : Roll) :
    Monotone fun n => (m.steps r n).sink.bytes :=
  monotone_nat_of_le_succ fun n => bytes_le_step (h.steps r n) _

/-- **As long as the lines fit the buffer**, steps come to the same with a printer
on a full device as with a roll. -/
theorem steps_holding (h : m.WellFormed) {n : ℕ}
    (hroom : (m.steps r n).sink.bytes ≤ Console.bufferSize) :
    m.steps (Printer.holding r) n
      = ⟨(m.steps r n).answers, (m.steps r n).machine, .holding (m.steps r n).sink⟩ := by
  induction n with
  | zero => rfl
  | succ n ih =>
      have hbefore : (m.steps r n).sink.bytes ≤ Console.bufferSize :=
        (monotone_bytes_steps h r (Nat.le_succ n)).trans hroom
      cases shelves_step (h.steps r n) hbefore with
      | kept _ hstep =>
          rw [steps, ih hbefore]
          dsimp only
          rw [hstep]
          rfl
      | refused _ _ _ hover _ => exact absurd hover (Nat.not_lt_of_le hroom)

/-- The step with this number prints the first word whose line does not fit the
buffer. -/
structure Overruns (m : Machine) (n : ℕ) : Prop where
  le : (m.steps Roll.blank n).sink.bytes ≤ Console.bufferSize
  lt : Console.bufferSize < (m.steps Roll.blank (n + 1)).sink.bytes

/-- If the lines do not fit the buffer after some steps, there is a first word
whose line does not. -/
lemma exists_overruns {n : ℕ} (h : Console.bufferSize < (m.steps Roll.blank n).sink.bytes) :
    ∃ k, m.Overruns k := by
  induction n with
  | zero => exact absurd h (Nat.not_lt_of_le (Nat.zero_le _))
  | succ n ih =>
      rcases Nat.lt_or_ge Console.bufferSize (m.steps Roll.blank n).sink.bytes with hover | hroom
      · exact ih hover
      · exact ⟨n, hroom, h⟩

/-- **The word whose line does not fit** is the top of the stack of a machine at a
`PRINT`. The printer refuses it, and nothing but the status of that machine
changes. -/
theorem Overruns.steps_holding {n : ℕ} (h : m.WellFormed) (ho : m.Overruns n) :
    let stuck := (m.steps Roll.blank n).machine
    ∃ v, (m.steps Roll.blank (n + 1)).sink = (m.steps Roll.blank n).sink.add v ∧
      stuck.top? = some v ∧ Instruction.print.StandsAt stuck.code.toList stuck.ip ∧
      (m.steps (Printer.holding .blank) (n + 1)).machine
        = stuck.withStatus (.faulted (.outputRefused stuck.ip)) ∧
      (m.steps (Printer.holding .blank) (n + 1)).sink
        = .refusing (m.steps Roll.blank n).sink := by
  intro stuck
  cases shelves_step (h.steps Roll.blank n) ho.le with
  | kept hroom _ => exact absurd ho.lt (Nat.not_lt_of_le hroom)
  | @refused v htop hstands hsink _ hstep =>
      refine ⟨v, hsink, htop, hstands, ?_, ?_⟩
      · rw [steps, Machine.steps_holding h ho.le]
        exact congrArg Outcome.machine hstep
      · rw [steps, Machine.steps_holding h ho.le]
        exact congrArg Outcome.sink hstep

/-! ### Rolls refuse nothing -/

/-- A machine that prints on a roll never faults because of it. -/
lemma status_steps_ne_outputRefused (h : m.WellFormed) (hready : m.status = .ready) (r : Roll)
    (n offset : ℕ) : (m.steps r n).machine.status ≠ .faulted (.outputRefused offset) := by
  induction n with
  | zero =>
      intro hstatus
      rw [steps, hready] at hstatus
      cases hstatus
  | succ n ih =>
      rw [steps]
      dsimp only
      by_cases hready' : (m.steps r n).machine.status = .ready
      · cases transition_step (h.steps r n) hready' (m.steps r n).sink with
        | @fault fault he hout =>
            rw [hout]
            rintro ⟨rfl⟩
            exact nextEffect_ne_outputRefused (h.steps r n) offset he
        | stop he hout =>
            rw [hout]
            rintro ⟨⟩
        | proceed he hv hout =>
            rw [hout]
            exact ih
        | print he hv hprint hout =>
            rw [hout]
            exact ih
        | refuse he hv hprint hout => cases hprint
      · rwa [step_of_not_ready hready']

/-! ### Runs -/

section Runs

variable {capacity limits : Limits} {program : Bytes}

/-- A run with a roll whose lines fit the buffer is one with a printer on a full
device. -/
lemma returns_holding_of_le (hload : load capacity limits program = .ok m)
    {out : Outcome Unit Roll} (h : m.Returns Roll.blank out)
    (hroom : out.sink.bytes ≤ Console.bufferSize) :
    m.Returns (Printer.holding .blank) ⟨out.answer, out.machine, .holding out.sink⟩ := by
  obtain ⟨n, hends, hmachine, hsink⟩ := (returns_iff_of_load hload).mp h
  rw [hsink] at hroom
  refine (returns_iff_of_load hload).mpr ⟨n, ?_, ?_, ?_⟩
  · rwa [steps_holding (.of_load hload) hroom]
  · rwa [steps_holding (.of_load hload) hroom]
  · rw [steps_holding (.of_load hload) hroom, hsink]

/-- A word whose line does not fit ends the run with a printer on a full device. -/
lemma returns_holding_of_overruns (hload : load capacity limits program = .ok m) {n : ℕ}
    (h : m.Overruns n) :
    let stuck := (m.steps Roll.blank n).machine
    m.Returns (Printer.holding .blank) ⟨.error (.outputRefused stuck.ip),
      stuck.withStatus (.faulted (.outputRefused stuck.ip)),
      .refusing (m.steps Roll.blank n).sink⟩ := by
  intro stuck
  obtain ⟨v, -, -, -, hmachine, hsink⟩ := h.steps_holding (.of_load hload)
  refine (returns_iff_of_load hload).mpr ⟨n + 1, ?_, hmachine.symm, hsink.symm⟩
  rw [hmachine]
  exact .faulted _

/-- **Runs on a full device**: those with a roll whose lines fit the buffer, and
those that end where a word is refused. -/
theorem returns_holding_cases (hload : load capacity limits program = .ok m)
    {out : Outcome Unit Printer} (h : m.Returns (Printer.holding .blank) out) :
    (∃ out' : Outcome Unit Roll, m.Returns Roll.blank out' ∧
      out'.sink.bytes ≤ Console.bufferSize ∧
      out = ⟨out'.answer, out'.machine, .holding out'.sink⟩) ∨
    ∃ n, m.Overruns n ∧
      let stuck := (m.steps Roll.blank n).machine
      out = ⟨.error (.outputRefused stuck.ip),
        stuck.withStatus (.faulted (.outputRefused stuck.ip)),
        .refusing (m.steps Roll.blank n).sink⟩ := by
  obtain ⟨n, hends, hmachine, hsink⟩ := (returns_iff_of_load hload).mp h
  rcases Nat.lt_or_ge Console.bufferSize (m.steps Roll.blank n).sink.bytes with hover | hroom
  · obtain ⟨k, hk⟩ := exists_overruns hover
    exact .inr ⟨k, hk, h.unique (returns_holding_of_overruns hload hk)⟩
  · rw [steps_holding (.of_load hload) hroom] at hends
    have hroll : m.Returns Roll.blank
        ⟨out.answer, (m.steps Roll.blank n).machine, (m.steps Roll.blank n).sink⟩ :=
      (returns_iff_of_load hload).mpr ⟨n, hends, rfl, rfl⟩
    exact .inl ⟨_, hroll, hroom, h.unique (returns_holding_of_le hload hroll hroom)⟩

end Runs

end Machine

end Bytecode
