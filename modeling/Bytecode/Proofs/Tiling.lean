/-
A listing tiles its program: the listed instructions stand one after the
other from the start, and only what holds no instruction is left behind
them.

* `Listing.nth`: what a call of `next` answers; `nth_eq_getElem?` ties the
  calls to the list of all entries;
* `Listing.Tail`: how a listing ends, at the end of the program or with one
  error at the first position that holds no instruction;
* `exists_layout_append_tail`: the entries of a program are a layout and a
  tail;
* `entries_tile` (**a lossless tiling**): this, the bound on the number of
  entries, and the listing of a concatenation, which makes concatenated
  encodings injective.
-/
import Mathlib
import Bytecode.Listing.Lemmas
import Bytecode.Proofs.Codec

namespace Bytecode.Listing

variable {c : Code} {p : ℕ}

/-! ### Calls -/

/-- What the call number `n` of `next` answers, counted from zero. -/
def nth (l : Listing) (n : ℕ) : Option (Except DecodeError Entry) :=
  ((fun l : Listing => l.next.2)^[n] l).next.1

/-- The entries before the ones that are left stay in front of them. -/
lemma drainFrom_eq_append (l : Listing) (before : List (Except DecodeError Entry)) :
    (l.drainFrom before).1 = before.reverse ++ l.drain.1 := by
  induction hk : l.remaining using Nat.strong_induction_on generalizing l before with
  | _ k ih =>
    cases hnext : l.next with
    | mk answer l' =>
        cases answer with
        | none =>
            rw [drain, drainFrom_of_next_eq_none hnext, drainFrom_of_next_eq_none hnext]
            simp
        | some entry =>
            have hlt := remaining_next_lt hnext
            rw [hk] at hlt
            rw [drain, drainFrom_of_next_eq_some hnext, drainFrom_of_next_eq_some hnext,
              ih _ hlt l' _ rfl, ih _ hlt l' _ rfl]
            simp

/-- Nothing is left of a listing without a next entry. -/
lemma drain_of_next_eq_none {l l' : Listing} (h : l.next = (none, l')) : l.drain.1 = [] := by
  rw [drain, drainFrom_of_next_eq_none h]
  rfl

/-- The next entry is the first of those that are left. -/
lemma drain_of_next_eq_some {l l' : Listing} {entry : Except DecodeError Entry}
    (h : l.next = (some entry, l')) : l.drain.1 = entry :: l'.drain.1 := by
  rw [drain, drainFrom_of_next_eq_some h, drainFrom_eq_append]
  rfl

/-- **Calls**: one call after the other answers the entries that are left, and
none ever after. -/
lemma nth_eq_getElem? (l : Listing) (n : ℕ) : l.nth n = l.drain.1[n]? := by
  induction n generalizing l with
  | zero =>
      cases hnext : l.next with
      | mk answer l' =>
          change l.next.1 = _
          cases answer with
          | none => rw [drain_of_next_eq_none hnext, hnext]; rfl
          | some entry => rw [drain_of_next_eq_some hnext, hnext]; rfl
  | succ n ih =>
      cases hnext : l.next with
      | mk answer l' =>
          have hsucc : l.nth (n + 1) = l'.nth n := by
            rw [nth, Function.iterate_succ_apply, hnext]
            rfl
          rw [hsucc, ih]
          cases answer with
          | none =>
              rw [drain_of_next_eq_none hnext, drain_of_next_eq_none (next_of_next_eq_none hnext)]
              rfl
          | some entry =>
              rw [drain_of_next_eq_some hnext, List.getElem?_cons_succ]

/-! ### The end of a listing -/

/-- How the listing of a program ends that has come to an offset: at the end
of the program, or with the error of a byte that is no opcode, or with the
error of an opcode without its whole operand. -/
inductive Tail (program : List UInt8) (offset : ℕ) : List (Except DecodeError Entry) → Prop
  /-- The whole program has been listed. -/
  | whole (h : offset = program.length) : Tail program offset []
  /-- The byte at the offset is no opcode. -/
  | unknown {byte : UInt8} (h : program[offset]? = some byte) (hbyte : 14 ≤ byte.toNat) :
      Tail program offset [.error (.unknownOpcode offset byte)]
  /-- The operand behind the opcode at the offset is not whole. -/
  | truncated {op : Opcode} (h : program[offset]? = some op.byte)
      (hend : program.length < offset + op.size) :
      Tail program offset [.error (.pastEnd program.length)]

/-- A listing ends with one error at most, within the program. -/
lemma Tail.length_le {program : List UInt8} {offset : ℕ} {tail : List (Except DecodeError Entry)}
    (h : Tail program offset tail) : offset + tail.length ≤ program.length := by
  cases h with
  | whole h => rw [h]; rfl
  | unknown h _ => exact (List.getElem?_eq_some_iff.mp h).1
  | truncated h _ => exact (List.getElem?_eq_some_iff.mp h).1

/-- A position that holds no instruction ends a listing. -/
lemma tail_of_decodeAt_eq_error {e : DecodeError} (h : c.decodeAt p = .error e)
    (hp : p < c.size) : Tail c.toList p [.error e] := by
  have hlt : p < c.toList.length := by rwa [c.length_toList]
  have hget : c.toList[p]? = some c.toList[p] := List.getElem?_eq_getElem hlt
  have hbyte : c.byteAt p = .ok c.toList[p] := Code.byteAt_eq_ok_iff.mpr hget
  have hfst := Decoder.decode_fst ⟨c, p⟩
  rw [h] at hfst
  cases hop : Opcode.ofByte? c.toList[p] with
  | none =>
      have hunknown := Opcode.ofByte?_eq_none_iff.mp hop
      rw [Decoder.decode_of_unknown (d := ⟨c, p⟩) hbyte hunknown] at hfst
      cases hfst
      exact .unknown hget hunknown
  | some op =>
      have heq : c.toList[p] = op.byte := Opcode.ofByte?_eq_some_iff.mp hop
      rw [heq] at hbyte hget
      by_cases hend : p + op.size ≤ c.size
      · obtain ⟨i, -, hd⟩ := Decoder.decode_of_complete (d := ⟨c, p⟩) hbyte hend
        rw [hd] at hfst
        cases hfst
      · have hlong : c.size < p + op.size := Nat.lt_of_not_le hend
        rw [Decoder.decode_of_truncated (d := ⟨c, p⟩) hbyte hp hlong] at hfst
        cases hfst
        have htail : Tail c.toList p [.error (.pastEnd c.toList.length)] :=
          .truncated hget (by rwa [c.length_toList])
        rwa [c.length_toList] at htail

/-- At a position that holds no instruction the next entry is an error, and
none is left behind it. -/
lemma drain_of_decodeAt_eq_error {e : DecodeError} (h : c.decodeAt p = .error e)
    (hp : p < c.size) : (drain ⟨⟨c, p⟩, false⟩).1 = [.error e] := by
  have hfst := Decoder.decode_fst ⟨c, p⟩
  rw [h] at hfst
  cases hd : (Decoder.mk c p).decode with
  | mk result d =>
      rw [hd] at hfst
      dsimp only at hfst
      have hnext : next ⟨⟨c, p⟩, false⟩ = (some (.error e), ⟨d, true⟩) := by
        rw [next, if_neg (by simpa using hp), hd, hfst]
      have hend : next ⟨d, true⟩ = (none, ⟨d, true⟩) := if_pos (.inl rfl)
      rw [drain_of_next_eq_some hnext, drain_of_next_eq_none hend]

/-! ### The tiling -/

/-- **The entries that are left** are instructions that stand one after the
other from the position on, and a tail. -/
lemma exists_layout_append_tail (h : p ≤ c.size) :
    ∃ (instructions : List Instruction) (tail : List (Except DecodeError Entry)),
      (drain ⟨⟨c, p⟩, false⟩).1 = (Entry.layout p instructions).map .ok ++ tail ∧
        instructions.flatMap Instruction.encode <+: c.toList.drop p ∧
        (∀ entry ∈ Entry.layout p instructions,
          c.decodeAt entry.offset = .ok entry.instruction) ∧
        Tail c.toList (p + (instructions.flatMap Instruction.encode).length) tail ∧
        ∀ e, .error e ∈ tail →
          c.decodeAt (p + (instructions.flatMap Instruction.encode).length) = .error e := by
  -- the induction is on what lies behind the position
  induction hk : c.size - p using Nat.strong_induction_on generalizing p with
  | _ k ih =>
    rcases Nat.eq_or_lt_of_le h with rfl | hlt
    · refine ⟨[], [], ?_, List.nil_prefix, by rintro _ ⟨⟩, .whole c.length_toList.symm,
        by rintro _ ⟨⟩⟩
      exact drain_of_next_eq_none (next_of_size_le le_rfl false)
    · cases hdecode : c.decodeAt p with
      | error e =>
          refine ⟨[], [.error e], drain_of_decodeAt_eq_error hdecode hlt, List.nil_prefix,
            by rintro _ ⟨⟩, tail_of_decodeAt_eq_error hdecode hlt, fun e' hmem => ?_⟩
          cases List.mem_singleton.mp hmem
          exact hdecode
      | ok i =>
          have hpos : 0 < i.size := i.opcode.size_pos
          have hend := Code.add_size_le_of_decodeAt hdecode
          obtain ⟨instructions, tail, hdrain, hencoded, hsound, htail, herror⟩ :=
            ih (c.size - (p + i.size)) (by omega) hend rfl
          obtain ⟨rest, hrest⟩ := Code.decodeAt_eq_ok_iff.mp hdecode
          have hdrop : c.toList.drop (p + i.size) = rest := by
            rw [← List.drop_drop, ← hrest, ← i.length_encode, List.drop_left]
          have hstop : p + ((i :: instructions).flatMap Instruction.encode).length
              = p + i.size + (instructions.flatMap Instruction.encode).length := by
            rw [List.flatMap_cons, List.length_append, i.length_encode, Nat.add_assoc]
          rw [← hstop] at htail herror
          refine ⟨i :: instructions, tail, ?_, ?_, ?_, htail, herror⟩
          · rw [drain_of_next_eq_some (next_of_decodeAt hdecode), hdrain]
            rfl
          · rw [List.flatMap_cons, ← hrest, List.prefix_append_right_inj, ← hdrop]
            exact hencoded
          · intro entry hmem
            rcases List.mem_cons.mp hmem with rfl | hmem
            · exact hdecode
            · exact hsound entry hmem

/-- No instruction is listed without taking a byte. -/
lemma length_le_length_flatMap_encode (instructions : List Instruction) :
    instructions.length ≤ (instructions.flatMap Instruction.encode).length := by
  induction instructions with
  | nil => rfl
  | cons i rest ih =>
      have hpos : 0 < i.size := i.opcode.size_pos
      rw [List.flatMap_cons, List.length_append, i.length_encode, List.length_cons]
      omega

/-- **Unique decodability**: instructions are determined by their concatenated
encodings. -/
lemma flatMap_encode_injective :
    Function.Injective fun instructions : List Instruction =>
      instructions.flatMap Instruction.encode := by
  intro first second h
  dsimp only at h
  have hfirst : entries (first.flatMap Instruction.encode).toArray
      = (Entry.layout 0 first).map .ok := entries_eq_layout rfl
  have hsecond : entries (first.flatMap Instruction.encode).toArray
      = (Entry.layout 0 second).map .ok := entries_eq_layout h
  have hlayout : Entry.layout 0 first = Entry.layout 0 second :=
    List.map_injective_iff.mpr (fun _ _ hok => Except.ok.inj hok) (hfirst.symm.trans hsecond)
  rw [← Entry.map_instruction_layout 0 first, hlayout, Entry.map_instruction_layout]

/-- **A lossless tiling**: a listing has at most as many entries as its program
has bytes, its calls answer them one after the other and none ever after, and
they are instructions that stand one after the other from the start of the
program on, followed by nothing if these are the whole program and else by the
one error at the first offset that holds no instruction. Every concatenation of
encodings is listed as its instructions, and is the concatenation of no
others. -/
theorem entries_tile (program : Bytes) :
    (∀ n, (start program).nth n = (entries program)[n]?) ∧
      (entries program).length ≤ program.size ∧
      (∃ (instructions : List Instruction) (tail : List (Except DecodeError Entry)),
        entries program = (Entry.layout 0 instructions).map .ok ++ tail ∧
          instructions.flatMap Instruction.encode <+: program.toList ∧
          (∀ entry ∈ Entry.layout 0 instructions,
            (Decoder.mk (.ofBytes program) entry.offset).decode.1 = .ok entry.instruction) ∧
          Tail program.toList (instructions.flatMap Instruction.encode).length tail ∧
          ∀ e, .error e ∈ tail →
            (Decoder.mk (.ofBytes program)
              (instructions.flatMap Instruction.encode).length).decode.1 = .error e) ∧
      (∀ instructions : List Instruction,
        entries (instructions.flatMap Instruction.encode).toArray
          = (Entry.layout 0 instructions).map .ok) ∧
      Function.Injective fun instructions : List Instruction =>
        instructions.flatMap Instruction.encode := by
  have htile := exists_layout_append_tail (Nat.zero_le (Code.ofBytes program).size)
  simp only [Code.toList_ofBytes, List.drop_zero, Nat.zero_add] at htile
  simp only [Decoder.decode_fst]
  refine ⟨nth_eq_getElem? (start program), ?_, htile, fun _ => entries_eq_layout rfl,
    flatMap_encode_injective⟩
  obtain ⟨instructions, tail, hentries, -, -, htail, -⟩ := htile
  have hlayout := congrArg List.length (Entry.map_instruction_layout 0 instructions)
  have hlength := congrArg List.length hentries
  rw [List.length_map] at hlayout
  rw [List.length_append, List.length_map, hlayout] at hlength
  calc (entries program).length = instructions.length + tail.length := hlength
    _ ≤ (instructions.flatMap Instruction.encode).length + tail.length :=
        Nat.add_le_add_right (length_le_length_flatMap_encode instructions) _
    _ ≤ program.size := by
        rw [← Array.length_toList]
        exact htail.length_le

end Bytecode.Listing
