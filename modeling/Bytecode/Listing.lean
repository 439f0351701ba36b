/-
A listing: the instructions of a program one after the other, each with
its offset, from the start to the end or to the first position that
holds no instruction.

* `Listing.start`: the listing of a program before its first entry;
* `Listing.next`: the next entry, if one is left. A position that holds
  no instruction is listed as an error and ends the listing;
* `Listing.drain`: all entries that are left, and the listing after
  them;
* `next_of_next_eq_none`: a listing that has ended stays at its end.
-/
import Bytecode.Decoder

namespace Bytecode

/-- A line of a listing. -/
structure Entry where
  offset : Nat
  instruction : Instruction
  deriving DecidableEq

/-- A listing in progress: the decoder at the next entry, and whether an
entry could not be decoded. -/
structure Listing where
  decoder : Decoder
  failed : Bool

namespace Listing

/-- A program before its first entry. -/
def start (program : Bytes) : Listing :=
  ⟨⟨.ofBytes program, 0⟩, false⟩

/-- The next entry, or none at the end and after an error. -/
def next (l : Listing) : Option (Except DecodeError Entry) × Listing :=
  if l.failed ∨ l.decoder.code.size ≤ l.decoder.position then
    (none, l)
  else
    match l.decoder.decode with
    | (.ok i, d) => (some (.ok ⟨l.decoder.position, i⟩), ⟨d, false⟩)
    | (.error e, d) => (some (.error e), ⟨d, true⟩)

/-- A bound on the number of entries that are left. -/
def remaining (l : Listing) : Nat :=
  if l.failed then 0 else l.decoder.code.size + 1 - l.decoder.position

/-- Each entry brings the listing nearer to its end. -/
theorem remaining_next_lt {l l' : Listing} {entry : Except DecodeError Entry}
    (h : l.next = (some entry, l')) : l'.remaining < l.remaining := by
  unfold next at h
  split at h
  · cases h
  next hgo =>
    have hf : l.failed = false := by simpa using fun hf => hgo (.inl hf)
    have hlt : l.decoder.position < l.decoder.code.size := by
      simp only [not_or, Nat.not_le] at hgo
      exact hgo.2
    split at h
    next i d hd =>
      cases h
      have hcode : d.code = l.decoder.code := by
        have := l.decoder.code_decode
        rwa [hd] at this
      have hpos : d.position = l.decoder.position + i.size := by
        have := Decoder.position_decode (d := l.decoder) (i := i) (by rw [hd])
        rwa [hd] at this
      have := i.opcode.size_pos
      simp only [remaining, hf, hcode, hpos, Bool.false_eq_true, if_false, Instruction.size]
      omega
    next e d hd =>
      cases h
      simp only [remaining, hf, Bool.false_eq_true, if_false, if_true]
      omega

/-- The entries before the ones that are left, then those, and the
listing at its end. -/
def drainFrom (l : Listing) (before : List (Except DecodeError Entry)) :
    List (Except DecodeError Entry) × Listing :=
  match _h : l.next with
  | (none, l') => (before.reverse, l')
  | (some entry, l') => drainFrom l' (entry :: before)
termination_by l.remaining
decreasing_by exact remaining_next_lt _h

/-- All entries that are left, and the listing at its end. -/
def drain (l : Listing) : List (Except DecodeError Entry) × Listing :=
  l.drainFrom []

/-- All entries of a program, the last one possibly an error. -/
def entries (program : Bytes) : List (Except DecodeError Entry) :=
  (start program).drain.1

/-- A listing that has ended stays at its end. -/
theorem next_of_next_eq_none {l l' : Listing} (h : l.next = (none, l')) :
    l'.next = (none, l') := by
  unfold next at h
  split at h
  next hend =>
    cases h
    simp [next, hend]
  · split at h <;> cases h

end Listing

end Bytecode
