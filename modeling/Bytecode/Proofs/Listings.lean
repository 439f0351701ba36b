/-
What the command reports of a listing, when it is told nothing about its log and
its output is taken.

* `Listing.Extent`: how far a program can be listed, to its end or to the first
  offset that holds no instruction. The listing of the program shows it
  (`Listing.Extent.entries_eq`);
* `Command.Reads`: a command whose limits are in their ranges and whose program
  can be read. Nothing but the program is left to decide what is listed;
* `listEntries_of_working`: entries in front of a listing are written as their
  lines;
* `listings_are_lossless` (**what is reported of a listing**): the lines of the
  instructions, and the error behind them if there is one. The lines determine
  the program.
-/
import Mathlib
import Bytecode.Proofs.Legibility
import Bytecode.Proofs.Reports
import Bytecode.Proofs.Tiling

namespace Bytecode

/-! ### How far a program is listed -/

namespace Listing

/-- How far a program can be listed: the instructions that stand one after the
other from its start are the whole program, or behind them is the first offset
that holds no instruction, with its error. -/
inductive Extent (program : Bytes) (instructions : List Instruction) : Option DecodeError → Prop
  /-- The instructions are the whole program. -/
  | whole (h : program.toList = instructions.flatMap Instruction.encode) :
      Extent program instructions none
  /-- Behind the instructions the program goes on, but not with another one. -/
  | broken {e : DecodeError} (h : instructions.flatMap Instruction.encode <+: program.toList)
      (hlt : (instructions.flatMap Instruction.encode).length < program.size)
      (herror : (Decoder.mk (.ofBytes program)
        (instructions.flatMap Instruction.encode).length).decode.1 = .error e) :
      Extent program instructions (some e)

variable {program : Bytes} {instructions : List Instruction}

/-- What follows the entries of the instructions in a listing. -/
def rear (error? : Option DecodeError) : List (Except DecodeError Entry) :=
  (error?.map .error).toList

/-- **Every program can be listed so far.** -/
lemma exists_extent (program : Bytes) :
    ∃ (instructions : List Instruction) (error? : Option DecodeError),
      Extent program instructions error? := by
  obtain ⟨instructions, tail, -, hstart, -, htail, herror⟩ :=
    exists_layout_append_tail (Nat.zero_le (Code.ofBytes program).size)
  simp only [Code.toList_ofBytes, List.drop_zero, Nat.zero_add] at hstart htail herror
  have hbroken : ∀ e, tail = [.error e] →
      (instructions.flatMap Instruction.encode).length < program.toList.length →
        Extent program instructions (some e) := by
    intro e htail hlt
    refine .broken hstart hlt ?_
    rw [Decoder.decode_fst]
    exact herror e (by rw [htail]; exact List.mem_singleton.mpr rfl)
  cases htail with
  | whole h => exact ⟨instructions, none, .whole (hstart.eq_of_length h).symm⟩
  | unknown h hbyte =>
      exact ⟨instructions, some _, hbroken _ rfl (List.getElem?_eq_some_iff.mp h).1⟩
  | truncated h hend =>
      exact ⟨instructions, some _, hbroken _ rfl (List.getElem?_eq_some_iff.mp h).1⟩

/-- Encodings at the position of a listing are listed first, and the listing goes
on behind them. -/
lemma drain_of_isPrefix {c : Code} {p : ℕ}
    (h : instructions.flatMap Instruction.encode <+: c.toList.drop p) :
    (drain ⟨⟨c, p⟩, false⟩).1 = (Entry.layout p instructions).map .ok
      ++ (drain ⟨⟨c, p + (instructions.flatMap Instruction.encode).length⟩, false⟩).1 := by
  induction instructions generalizing p with
  | nil => rfl
  | cons i rest ih =>
      rw [List.flatMap_cons] at h
      have hdecode : c.decodeAt p = .ok i :=
        Code.decodeAt_of_encode_isPrefix ((List.prefix_append _ _).trans h)
      obtain ⟨behind, hbehind⟩ := h
      have hrest : rest.flatMap Instruction.encode <+: c.toList.drop (p + i.size) := by
        rw [← List.drop_drop, ← hbehind, List.append_assoc, ← i.length_encode, List.drop_left]
        exact List.prefix_append _ _
      rw [drain_of_next_eq_some (next_of_decodeAt hdecode), ih hrest, List.flatMap_cons,
        List.length_append, i.length_encode, Nat.add_assoc]
      rfl

/-- **The listing of a program** shows how far it can be listed. -/
theorem Extent.entries_eq {error? : Option DecodeError} (h : Extent program instructions error?) :
    entries program = (Entry.layout 0 instructions).map .ok ++ rear error? := by
  cases h with
  | whole h => exact (entries_eq_layout h).trans (List.append_nil _).symm
  | broken h hlt herror =>
      have hlist : instructions.flatMap Instruction.encode
          <+: (Code.ofBytes program).toList.drop 0 := by
        rwa [List.drop_zero, Code.toList_ofBytes]
      rw [Decoder.decode_fst] at herror
      have hdrain := drain_of_isPrefix hlist
      rw [Nat.zero_add, drain_of_decodeAt_eq_error herror hlt] at hdrain
      exact hdrain

/-- There is an error exactly if the program is no concatenation of encodings. -/
lemma Extent.error?_eq_none_iff {error? : Option DecodeError}
    (h : Extent program instructions error?) :
    error? = none ↔ ∃ all : List Instruction, program.toList = all.flatMap Instruction.encode := by
  constructor
  · rintro rfl
    cases h with
    | whole h => exact ⟨instructions, h⟩
  · rintro ⟨all, hall⟩
    have hentries := h.entries_eq
    rw [entries_eq_layout hall] at hentries
    cases error? with
    | none => rfl
    | some e =>
        have hmem : Except.error e ∈ (Entry.layout 0 all).map Except.ok := by
          rw [hentries]
          exact List.mem_append_right _ (List.mem_singleton.mpr rfl)
        obtain ⟨entry, -, hok⟩ := List.mem_map.mp hmem
        cases hok

end Listing

namespace Command

/-! ### The lines of a listing -/

/-- The entries in front of a listing are written on a working device, each as its
line. -/
lemma listEntries_of_working {c : Console} (hc : c.device = .working) (front : List Entry)
    (rest : List (Except DecodeError Entry)) :
    ∃ c', c'.device = .working ∧ c'.content = c.content ++ Entry.lines front ∧
      listEntries c (front.map .ok ++ rest) = listEntries c' rest := by
  induction front generalizing c with
  | nil => exact ⟨c, hc, String.append_empty.symm, rfl⟩
  | cons e front ih =>
      obtain ⟨c₁, hwrite, hworking, hcontent⟩ := Console.write_of_working hc (entryLine e)
      obtain ⟨c₂, hworking', hcontent', hlist⟩ := ih hworking
      refine ⟨c₂, hworking', ?_, ?_⟩
      · rw [hcontent', hcontent, Entry.lines_cons, String.append_assoc, Entry.line_eq]
      · rw [List.map_cons, List.cons_append, listEntries, hwrite, ← hlist]

/-- The report that a listing calls for. -/
def listed (instructions : List Instruction) (error? : Option DecodeError) : Report :=
  let lines := Entry.lines (Entry.layout 0 instructions)
  match error? with
  | none => ⟨0, lines, ""⟩
  | some e => complaint lines e.message

/-- **The report of a listing** on a working device. -/
theorem report_of_list {v : Verbosity} (hquiet : v.admits .info = false) (colour : Bool)
    {program : Bytes} {instructions : List Instruction} {error? : Option DecodeError}
    (h : Listing.Extent program instructions error?) :
    (list program (.blank .working) (.blank v)).report colour = listed instructions error? := by
  obtain ⟨c, hworking, hcontent, hlist⟩ :=
    listEntries_of_working (c := .blank .working) rfl (Entry.layout 0 instructions)
      (Listing.rear error?)
  have hlines : c.content = Entry.lines (Entry.layout 0 instructions) :=
    hcontent.trans String.empty_append
  rw [list, h.entries_eq, hlist]
  cases error? with
  | none =>
      have hend : listEntries c (Listing.rear none) = (.ok (), ⟨.working, c.content, ""⟩) := by
        rw [Listing.rear, Option.map_none, Option.toList_none, listEntries,
          Console.flush_of_working hworking]
      rw [hend]
      dsimp only
      rw [report_of_ok, Console.delivered_close_of_working rfl, Console.content,
        String.append_empty, hlines]
      rfl
  | some e =>
      change (Ending.mk (.error (.undecodable e)) c (.blank v)).report colour = _
      rw [report_of_error hquiet, Console.delivered_close_of_working hworking, hlines]
      rfl

/-! ### The command -/

/-- A command with its arguments: the limits are in their ranges, and the program
can be read. -/
structure Reads (host : Host) (arguments : List String) (a : Arguments) (program : Bytes) :
    Prop where
  parsed : Request.parse arguments = .ok (.execute a)
  limits : ∀ r, a.limits.Fits ⟨256, 16, 65536⟩ r
  file : host.read a.program = .ok program

variable {host : Host} {arguments : List String} {a : Arguments} {program : Bytes}

/-- What is done once the program has been read. -/
lemma Reads.execute_eq (h : Reads host arguments a program) (fuel : ℕ) :
    execute fuel host a =
      let j := (Journal.blank a.verbosity).note (.read program.size a.program)
      if a.listing then some (list program (.blank host.device) j)
      else play fuel a.limits program (.blank host.device) j := by
  have hcheck : a.limits.check .standard = .ok () := Limits.check_eq_ok_iff.mpr h.limits
  rw [execute, hcheck, h.file]

/-- The command is reported as it ends. -/
lemma Reads.report_eq (h : Reads host arguments a program) (fuel : ℕ) :
    report fuel host arguments = (execute fuel host a).map (Ending.report host.colour) := by
  rw [report, h.parsed]

/-- A command that lists its program on a working device and is told nothing about
its log. -/
structure Lists (host : Host) (arguments : List String) (a : Arguments) (program : Bytes) : Prop
    extends Reads host arguments a program where
  listing : a.listing = true
  level : a.verbosity = .upTo .warn
  device : host.device = .working

/-- A listing is reported by its instructions and its error alone. -/
lemma Lists.report_eq_listed (h : Lists host arguments a program)
    {instructions : List Instruction} {error? : Option DecodeError}
    (hextent : Listing.Extent program instructions error?) (fuel : ℕ) :
    report fuel host arguments = some (listed instructions error?) := by
  have hquiet : a.verbosity.admits .info = false := by
    rw [h.level]
    rfl
  rw [h.report_eq, h.execute_eq, h.device]
  dsimp only
  rw [if_pos h.listing, Journal.note_of_quiet hquiet]
  exact congrArg some (report_of_list hquiet host.colour hextent)

/-- **What is reported of a listing** on a working device: for every program, of
any size, one line for each instruction before the first offset that holds none.
The command succeeds without a diagnostic exactly if that is the end of the
program, and else it fails with the error at that offset. What is reported is the
same whatever limits the command is given. Two programs of which the same is
listed without an error are the same. -/
theorem listings_are_lossless :
    (∀ program : Bytes, ∃ (instructions : List Instruction) (error? : Option DecodeError),
      Listing.Extent program instructions error? ∧
        (error? = none ↔ ∃ all : List Instruction,
          program.toList = all.flatMap Instruction.encode) ∧
        ∀ (fuel : ℕ) (host : Host) (arguments : List String) (a : Arguments),
          Lists host arguments a program →
            report fuel host arguments = some (listed instructions error?)) ∧
      ∀ (program program' : Bytes) (fuel fuel' : ℕ) (host host' : Host)
        (arguments arguments' : List String) (a a' : Arguments) (stdout stderr stderr' : String),
        Lists host arguments a program → Lists host' arguments' a' program' →
          report fuel host arguments = some ⟨0, stdout, stderr⟩ →
            report fuel' host' arguments' = some ⟨0, stdout, stderr'⟩ → program = program' := by
  have hwhole : ∀ (program : Bytes) (fuel : ℕ) (host : Host) (arguments : List String)
      (a : Arguments) (stdout stderr : String), Lists host arguments a program →
        report fuel host arguments = some ⟨0, stdout, stderr⟩ →
          ∃ instructions : List Instruction,
            program.toList = instructions.flatMap Instruction.encode ∧
              stdout = Entry.lines (Entry.layout 0 instructions) := by
    intro program fuel host arguments a stdout stderr h hreport
    obtain ⟨instructions, error?, hextent⟩ := Listing.exists_extent program
    have hlisted := Option.some.inj (hreport.symm.trans (h.report_eq_listed hextent fuel))
    cases hextent with
    | whole hprogram => exact ⟨instructions, hprogram, congrArg Report.stdout hlisted⟩
    | broken _ _ _ => exact absurd (congrArg Report.exitCode hlisted) Nat.zero_ne_one
  refine ⟨fun program => ?_, ?_⟩
  · obtain ⟨instructions, error?, hextent⟩ := Listing.exists_extent program
    exact ⟨instructions, error?, hextent, hextent.error?_eq_none_iff,
      fun fuel host arguments a h => h.report_eq_listed hextent fuel⟩
  · intro program program' fuel fuel' host host' arguments arguments' a a' stdout stderr stderr'
      h h' hreport hreport'
    obtain ⟨instructions, hprogram, hstdout⟩ := hwhole _ _ _ _ _ _ _ h hreport
    obtain ⟨instructions', hprogram', hstdout'⟩ := hwhole _ _ _ _ _ _ _ h' hreport'
    have hlayout := Entry.lines_injective (hstdout.symm.trans hstdout')
    have hinstructions : instructions = instructions' := by
      rw [← Entry.map_instruction_layout 0 instructions, hlayout, Entry.map_instruction_layout]
    rw [← Array.toList_inj, hprogram, hprogram', hinstructions]

/-- Two instructions are listed by a command whose limits they exceed. -/
theorem listings_are_lossless_above_limits :
    let program : Bytes := #[1, 249, 255, 255, 255, 12]
    report 0 ⟨fun _ => .ok program, .working, true⟩ ["--max-program-bytes", "1", "-d", "a.bin"]
      = some ⟨0, "00000  PUSH -7\n00005  PRINT\n", ""⟩ := by
  intro program
  have hencoded : program.toList
      = [Instruction.push (-7), Instruction.print].flatMap Instruction.encode := by
    decide
  obtain ⟨instructions, error?, hextent, herror?, hreport⟩ := listings_are_lossless.1 program
  obtain rfl : error? = none := herror?.mpr ⟨_, hencoded⟩
  obtain rfl : instructions = [.push (-7), .print] := by
    cases hextent with
    | whole h => exact Listing.flatMap_encode_injective (h.symm.trans hencoded)
  rw [hreport 0 _ _ ⟨"a.bin", ⟨256, 16, 1⟩, true, .upTo .warn⟩]
  · decide +kernel
  · exact ⟨⟨by decide +kernel, fun r => by cases r <;> decide, rfl⟩, rfl, rfl, rfl⟩

end Command

end Bytecode
