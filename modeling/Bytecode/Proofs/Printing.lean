/-
Printed words on a working device: every word is taken, and nothing but the
lines of the words reaches the device, in order.

* `Word.lines`: words as text, each on a line of its own;
* `Word.lines_injective` (**the lines determine the words**);
* `Roll`: the sink that takes every word;
* `Console.content`: what has been written, whether it has reached the device
  or waits in the buffer. A working device loses nothing of it;
* `Printer.Shows`: a printer on a working device that has been given the words
  of a roll. The two sinks match (`Printer.matches_shows`), and closing the
  console delivers the lines (`Printer.Shows.finish`).
-/
import Mathlib
import Bytecode.Command.Console
import Bytecode.Proofs.Lockstep
import Bytecode.Text.Numeral.Lemmas

namespace Bytecode

/-! ### Lines -/

/-- Words as text, each as a decimal number on a line of its own. -/
def Word.lines (words : List Word) : String :=
  String.join (words.map fun v => toString v.toInt ++ "\n")

/-- The line of a printed word is its decimal number. -/
lemma Command.Printer.line_eq (v : Word) : line v = toString v.toInt ++ "\n" := by
  rw [line, Word.text, Text.integer_eq]

namespace Word

/-- The lines of words behind others come behind the lines of those. -/
lemma lines_append (words words' : List Word) :
    lines (words ++ words') = lines words ++ lines words' := by
  rw [← String.toList_inj]
  simp [lines]

/-- One word is one line. -/
lemma lines_singleton (v : Word) : lines [v] = Command.Printer.line v := by
  rw [Command.Printer.line_eq, ← String.toList_inj]
  simp [lines]

/-- The lines begin with that of the first word. -/
lemma lines_cons (v : Word) (words : List Word) :
    lines (v :: words) = Command.Printer.line v ++ lines words := by
  rw [← List.singleton_append, lines_append, lines_singleton]

/-- The first line can be read off the lines. -/
lemma takeWhile_lines (v : Word) (words : List Word) :
    (lines (v :: words)).toList.takeWhile (· != '\n') = v.text.toList := by
  have hbreak : ∀ c ∈ v.text.toList, (c != '\n') = true := by
    intro c hc
    rw [bne_iff_ne]
    rintro rfl
    exact Text.notMem_integer rfl (by decide) v.toInt hc
  rw [lines_cons, String.toList_append, Command.Printer.line, String.toList_append,
    List.append_assoc, List.takeWhile_append_of_pos hbreak]
  simp

/-- Where there is a word there is a line. -/
lemma lines_cons_ne_nil (v : Word) (words : List Word) : lines (v :: words) ≠ lines [] := by
  intro h
  have hlist := congrArg String.toList h
  simp [lines] at hlist

/-- **The lines determine the words.** -/
theorem lines_injective : Function.Injective lines := by
  intro words words' h
  induction words generalizing words' with
  | nil =>
      cases words' with
      | nil => rfl
      | cons v' rest' => exact absurd h.symm (lines_cons_ne_nil v' rest')
  | cons v rest ih =>
      cases words' with
      | nil => exact absurd h (lines_cons_ne_nil v rest)
      | cons v' rest' =>
          have hfirst := takeWhile_lines v rest
          rw [h, takeWhile_lines] at hfirst
          obtain rfl : v' = v := Int32.toInt_inj.mp
            (Text.integer_injective (String.toList_inj.mp hfirst))
          rw [lines_cons, lines_cons, String.append_right_inj] at h
          rw [ih h]

/-- The largest line. -/
example : lines [0, -2147483648] = "0\n-2147483648\n" := by decide +kernel

end Word

/-! ### A sink that takes every word -/

/-- The words printed so far, in order, with room for any number. -/
structure Roll where
  words : List Word

namespace Roll

/-- A roll without any words. -/
def blank : Roll :=
  ⟨[]⟩

/-- The roll with a word behind the others. -/
def add (r : Roll) (v : Word) : Roll :=
  ⟨r.words ++ [v]⟩

instance : Sink Roll where
  print r v := .ok (r.add v)

end Roll

namespace Command

/-! ### A console on a working device -/

namespace Console

/-- What has been written, whether it has reached the device or waits in the
buffer. -/
def content (c : Console) : String :=
  c.delivered ++ c.pending

variable {c : Console}

/-- A working device takes all that waits in the buffer. -/
lemma flush_of_working (h : c.device = .working) :
    c.flush = .ok ⟨.working, c.content, ""⟩ := by
  obtain ⟨device, delivered, pending⟩ := c
  subst h
  rw [flush]
  by_cases hp : pending = ""
  · rw [if_pos hp, content, hp, String.append_empty]
  · rw [if_neg hp]
    rfl

/-- A line is written behind all that has been written before, whether or not
the buffer has to be flushed for it. -/
lemma write_of_working (h : c.device = .working) (line : String) :
    ∃ c', c.write line = .ok c' ∧ c'.device = .working ∧ c'.content = c.content ++ line := by
  rw [write]
  by_cases hroom : c.pending.utf8ByteSize + line.utf8ByteSize ≤ bufferSize
  · rw [if_pos hroom]
    exact ⟨_, rfl, h, String.append_assoc.symm⟩
  · rw [if_neg hroom, flush_of_working h]
    exact ⟨_, rfl, rfl, rfl⟩

/-- Closing a console on a working device delivers all that has been written. -/
lemma delivered_close_of_working (h : c.device = .working) : c.close.delivered = c.content := by
  rw [close, flush_of_working h]

end Console

/-! ### A printer and a roll -/

namespace Printer

/-- A printer on a working device that has been given the words of a roll. -/
structure Shows (p : Printer) (r : Roll) : Prop where
  working : p.console.device = .working
  error_eq : p.error = none
  content_eq : p.console.content = Word.lines r.words

/-- A printer that has not printed yet shows no words. -/
lemma shows_blank : (onto (.blank .working)).Shows .blank :=
  ⟨rfl, rfl, rfl⟩

/-- **Every word is taken**: a printer on a working device takes what a roll
takes, which is everything. -/
theorem matches_shows : Sink.Matches Shows := by
  intro p r v h
  obtain ⟨c, hwrite, hworking, hcontent⟩ := Console.write_of_working h.working (line v)
  have hprint : p.print v = .ok { p with console := c } := by rw [print, hwrite]
  change Sink.Matched Shows (p.print v) (.ok (r.add v))
  rw [hprint]
  refine .taken ⟨hworking, h.error_eq, ?_⟩
  rw [hcontent, h.content_eq, Roll.add, Word.lines_append, Word.lines_singleton]

/-- A printer that has met no error leaves the lines of its words. -/
lemma Shows.finish {p : Printer} {r : Roll} (h : p.Shows r) :
    ∃ c, p.finish = .ok c ∧ c.close.delivered = Word.lines r.words := by
  have hfinish : p.finish = .ok ⟨.working, p.console.content, ""⟩ := by
    rw [Printer.finish, h.error_eq]
    exact Console.flush_of_working h.working
  refine ⟨_, hfinish, ?_⟩
  rw [Console.delivered_close_of_working rfl]
  exact String.append_empty.trans h.content_eq

end Printer

end Command

end Bytecode
