/-
Assemblers side by side: any calls on any of them, with patches that may be
used on another assembler than the one whose jump they belong to.

* `Assembler.serve`: one call on one assembler;
* `Assembler.Written`: bytes are written at an offset, and all other bytes of
  the buffer stay;
* `Assembler.Serves`: what a call has to answer and to leave behind. It does so
  in a buffer that is no larger than one can be, with the patch of a jump
  (`serves_serve`), and a call that fails leaves the assembler as it was
  (`Serves.eq_of_error`);
* `Workshop`: the assemblers, and the patches that forward jumps have answered,
  each until it is used;
* `calls_keep_apart` (**isolation and clean failure**): the sizes of the
  buffers, the other assemblers and the assembler itself, after any calls.
-/
import Mathlib
import Bytecode.Proofs.Draft

namespace Bytecode

/-- The error among the answers. -/
def errorOf? {α : Type} : Except AssemblyError α → Option AssemblyError
  | .ok _ => none
  | .error e => some e

/-- The error that a call has failed with. -/
def Reply.error? : Reply → Option AssemblyError
  | .offset answer => errorOf? answer
  | .target answer => errorOf? answer
  | .forward answer => errorOf? answer
  | .patched answer => errorOf? answer
  | .unavailable => none

namespace Assembler

/-- One call. A patch is looked up by its number, and one that is not there can
not be used. -/
def serve (a : Assembler) (patch? : ℕ → Option Patch) : Call → Reply × Assembler
  | .emit i => (a.emit i).map .offset id
  | .typed i => (a.typed i).map .offset id
  | .raw byte => (a.raw byte).map .offset id
  | .label => (.target a.label, a)
  | .jumpForward op => (a.jumpForward op).map .forward id
  | .patch k target =>
    match patch? k with
    | some p => (a.patch p target).map .patched id
    | none => (.unavailable, a)
  | .patchHere k =>
    match patch? k with
    | some p => (a.patchHere p).map .patched id
    | none => (.unavailable, a)

/-! ### What a call has to do -/

/-- The bytes have been written at an offset of the buffer, and the bytes before
and behind them have stayed. -/
structure Written (a : Assembler) (offset : ℕ) (bytes : List UInt8) (a' : Assembler) : Prop where
  fits : offset + bytes.length ≤ a.buffer.size
  buffer_eq : a'.buffer.toList =
    a.buffer.toList.take offset ++ bytes ++ a.buffer.toList.drop (offset + bytes.length)

/-- What putting bytes behind the program has to answer and to leave behind: if
they fit they are put there, and else nothing changes. -/
def Puts {α : Type} (a : Assembler) (bytes : List UInt8) (value : α)
    (answer : Except AssemblyError α) (a' : Assembler) : Prop :=
  if a.here + bytes.length ≤ a.buffer.size then
    answer = .ok value ∧ a.Written a.here bytes a' ∧ a'.here = a.here + bytes.length
  else answer = .error .bufferTooSmall ∧ a' = a

/-- What the use of a patch has to answer and to leave behind: if its jump fits
the buffer, whether or not there is a program so far, it is written there, and
else nothing changes. The end of the program stays. -/
def Points (a : Assembler) (p : Patch) (target : UInt16) (answer : Except AssemblyError Unit)
    (a' : Assembler) : Prop :=
  if p.offset + 3 ≤ a.buffer.size then
    answer = .ok () ∧ a.Written p.offset (p.bytes target) a' ∧ a'.here = a.here
  else answer = .error .bufferTooSmall ∧ a' = a

/-- What a call has to answer and to leave behind. -/
def Serves (a : Assembler) (patch? : ℕ → Option Patch) (reply : Reply) (a' : Assembler) :
    Call → Prop
  | .emit i | .typed i => ∃ answer, reply = .offset answer ∧ a.Puts i.encode a.here answer a'
  | .raw byte => ∃ answer, reply = .offset answer ∧ a.Puts [byte] a.here answer a'
  | .label =>
    reply = .target (if a.here ≤ 65535 then .ok (UInt16.ofNat a.here)
      else .error (.targetOutOfRange a.here)) ∧ a' = a
  | .jumpForward op =>
    if op ∈ [Opcode.jmp, .jz, .jnz] then
      ∃ answer, reply = .forward answer ∧
        a.Puts (Instruction.ofOperand op 0).encode ⟨op, a.here⟩ answer a'
    else reply = .forward (.error (.notAJump op)) ∧ a' = a
  | .patch k target =>
    match patch? k with
    | some p => ∃ answer, reply = .patched answer ∧ a.Points p target answer a'
    | none => reply = .unavailable ∧ a' = a
  | .patchHere k =>
    match patch? k with
    | some p =>
      ∃ answer, reply = .patched answer ∧
        if a.here ≤ 65535 then a.Points p (UInt16.ofNat a.here) answer a'
        else answer = .error (.targetOutOfRange a.here) ∧ a' = a
    | none => reply = .unavailable ∧ a' = a

/-! ### What a call does -/

variable {a a' : Assembler}

/-- A write that fits is made, and nothing else. -/
lemma written_overwrite {offset : ℕ} {bytes : List UInt8}
    (hfit : offset + bytes.length ≤ a.buffer.size) (free : ℕ) :
    a.Written offset bytes ⟨a.buffer.overwrite offset bytes, free⟩ :=
  ⟨hfit, Bytes.toList_overwrite _ hfit⟩

/-- Bytes are put behind the program, if they fit. -/
lemma puts_append (hsize : a.buffer.size < 2 ^ 63) (bytes : List UInt8) :
    a.Puts bytes a.here (a.append bytes).1 (a.append bytes).2 := by
  have hbound : a.buffer.size < offsetBound := hsize.trans (by decide)
  rw [Puts, append_of_lt hbound, here]
  split_ifs with hfit
  · exact ⟨rfl, written_overwrite hfit _, rfl⟩
  · exact ⟨rfl, rfl⟩

/-- What bytes have to do does not depend on what is answered for them. -/
lemma Puts.map {α β : Type} {bytes : List UInt8} {value : α} {answer : Except AssemblyError α}
    (h : a.Puts bytes value answer a') (f : α → β) :
    a.Puts bytes (f value) (answer.map f) a' := by
  rw [Puts] at h ⊢
  split_ifs at h ⊢
  · exact ⟨by rw [h.1]; rfl, h.2⟩
  · exact ⟨by rw [h.1]; rfl, h.2⟩

/-- The target of a jump is written at its offset, if it fits. -/
lemma points_patch {p : Patch} (h : p.opcode.IsJump) (a : Assembler) (target : UInt16) :
    a.Points p target (a.patch p target).1 (a.patch p target).2 := by
  have hlength := Patch.length_bytes h target
  rw [Points, patch_of_isJump h, hlength]
  split_ifs with hfit
  · exact ⟨rfl, written_overwrite (hlength.symm ▸ hfit) _, rfl⟩
  · exact ⟨rfl, rfl⟩

/-- The next offset is a target if two bytes hold it. -/
lemma label_eq (a : Assembler) :
    a.label = if a.here ≤ 65535 then .ok (UInt16.ofNat a.here)
      else .error (.targetOutOfRange a.here) := by
  rw [label, here]
  split_ifs with hlow hle hle
  · rfl
  · omega
  · omega
  · rfl

/-- **What a call does** is what it has to do, in a buffer that is no larger than
one can be, with patches of jumps. -/
theorem serves_serve (hsize : a.buffer.size < 2 ^ 63) {patch? : ℕ → Option Patch}
    (hjumps : ∀ k p, patch? k = some p → p.opcode.IsJump) (call : Call) :
    a.Serves patch? (a.serve patch? call).1 (a.serve patch? call).2 call := by
  cases call with
  | emit i =>
      rw [serve, emit_eq_append]
      exact ⟨_, rfl, puts_append hsize i.encode⟩
  | typed i =>
      rw [serve, typed_eq_emit, emit_eq_append]
      exact ⟨_, rfl, puts_append hsize i.encode⟩
  | raw byte => exact ⟨_, rfl, puts_append hsize [byte]⟩
  | label => exact ⟨congrArg Reply.target a.label_eq, rfl⟩
  | jumpForward op =>
      rw [Serves, serve]
      split_ifs with hop
      · rw [jumpForward_of_isJump hop]
        exact ⟨_, rfl, (puts_append hsize (Instruction.ofOperand op 0).encode).map _⟩
      · rw [jumpForward_of_not_isJump hop]
        exact ⟨rfl, rfl⟩
  | patch k target =>
      rw [Serves, serve]
      cases hp : patch? k with
      | none => exact ⟨rfl, rfl⟩
      | some p => exact ⟨_, rfl, points_patch (hjumps k p hp) a target⟩
  | patchHere k =>
      rw [Serves, serve]
      cases hp : patch? k with
      | none => exact ⟨rfl, rfl⟩
      | some p =>
          refine ⟨(a.patchHere p).1, rfl, ?_⟩
          dsimp only [Prod.map]
          rw [Assembler.patchHere, label_eq]
          split_ifs with hle
          · exact points_patch (hjumps k p hp) a _
          · exact ⟨rfl, rfl⟩

/-- A patch belongs to the jump that has been put. -/
lemma eq_of_jumpForward {op : Opcode} {p : Patch} (h : (a.jumpForward op).1 = .ok p) :
    p = ⟨op, a.here⟩ ∧ op.IsJump := by
  by_cases hop : op.IsJump
  · rw [jumpForward_of_isJump hop] at h
    by_cases hfit : a.Fits (Instruction.ofOperand op 0).encode.length
    · rw [append_of_fits hfit] at h
      cases h
      exact ⟨rfl, hop⟩
    · rw [append_of_not_fits hfit] at h
      cases h
  · rw [jumpForward_of_not_isJump hop] at h
    cases h

/-! ### What follows for every call -/

/-- A write keeps the size of the buffer. -/
lemma Written.size_eq {offset : ℕ} {bytes : List UInt8} (h : a.Written offset bytes a') :
    a'.buffer.size = a.buffer.size := by
  have hlength := congrArg List.length h.buffer_eq
  have hfits := h.fits
  simp only [List.length_append, List.length_take, List.length_drop,
    Array.length_toList] at hlength
  omega

/-- Nothing has changed, or there is no error, and bytes have been written that
fit the buffer. The program then ends where it has ended before, or behind
them. No error says that there is no jump. -/
def Advances (a : Assembler) (error? : Option AssemblyError) (a' : Assembler) : Prop :=
  (a' = a ∧ ∀ op, error? ≠ some (.notAJump op)) ∨
    error? = none ∧ ∃ offset bytes, a.Written offset bytes a' ∧
      (a'.here = a.here ∨ a'.here = offset + bytes.length)

/-- Bytes are put behind the program, or they do not fit. -/
lemma Puts.advances {α : Type} {bytes : List UInt8} {value : α} {answer : Except AssemblyError α}
    (h : a.Puts bytes value answer a') : a.Advances (errorOf? answer) a' := by
  rw [Puts] at h
  split_ifs at h
  · obtain ⟨rfl, hwritten, hhere⟩ := h
    exact .inr ⟨rfl, _, _, hwritten, .inr hhere⟩
  · obtain ⟨rfl, rfl⟩ := h
    exact .inl ⟨rfl, by rintro op ⟨⟩⟩

/-- The target of a patch is written, or its jump does not fit. -/
lemma Points.advances {p : Patch} {target : UInt16} {answer : Except AssemblyError Unit}
    (h : a.Points p target answer a') : a.Advances (errorOf? answer) a' := by
  rw [Points] at h
  split_ifs at h
  · obtain ⟨rfl, hwritten, hhere⟩ := h
    exact .inr ⟨rfl, _, _, hwritten, .inl hhere⟩
  · obtain ⟨rfl, rfl⟩ := h
    exact .inl ⟨rfl, by rintro op ⟨⟩⟩

/-- **What calls have in common**: a forward jump with an opcode that is not one
of a jump is refused as such, and every other call advances. -/
lemma Serves.common {patch? : ℕ → Option Patch} {reply : Reply} {call : Call}
    (h : a.Serves patch? reply a' call) :
    (∃ op, call = .jumpForward op ∧ op ∉ [Opcode.jmp, .jz, .jnz] ∧
        reply.error? = some (.notAJump op) ∧ a' = a) ∨
      (∀ op, call = .jumpForward op → op ∈ [Opcode.jmp, .jz, .jnz]) ∧
        a.Advances reply.error? a' := by
  cases call with
  | emit i =>
      obtain ⟨answer, rfl, hputs⟩ := h
      exact .inr ⟨by rintro op ⟨⟩, hputs.advances⟩
  | typed i =>
      obtain ⟨answer, rfl, hputs⟩ := h
      exact .inr ⟨by rintro op ⟨⟩, hputs.advances⟩
  | raw byte =>
      obtain ⟨answer, rfl, hputs⟩ := h
      exact .inr ⟨by rintro op ⟨⟩, hputs.advances⟩
  | label =>
      obtain ⟨rfl, rfl⟩ := h
      refine .inr ⟨by rintro op ⟨⟩, .inl ⟨rfl, fun op => ?_⟩⟩
      split_ifs
      · rintro ⟨⟩
      · rintro ⟨⟩
  | jumpForward op =>
      rw [Serves] at h
      split_ifs at h with hop
      · obtain ⟨answer, rfl, hputs⟩ := h
        exact .inr ⟨by rintro _ ⟨⟩; exact hop, hputs.advances⟩
      · obtain ⟨rfl, rfl⟩ := h
        exact .inl ⟨op, rfl, hop, rfl, rfl⟩
  | patch k target =>
      refine .inr ⟨by rintro op ⟨⟩, ?_⟩
      rw [Serves] at h
      cases hp : patch? k with
      | none =>
          rw [hp] at h
          obtain ⟨rfl, rfl⟩ := h
          exact .inl ⟨rfl, by rintro op ⟨⟩⟩
      | some p =>
          rw [hp] at h
          obtain ⟨answer, rfl, hpoints⟩ := h
          exact hpoints.advances
  | patchHere k =>
      refine .inr ⟨by rintro op ⟨⟩, ?_⟩
      rw [Serves] at h
      cases hp : patch? k with
      | none =>
          rw [hp] at h
          obtain ⟨rfl, rfl⟩ := h
          exact .inl ⟨rfl, by rintro op ⟨⟩⟩
      | some p =>
          rw [hp] at h
          obtain ⟨answer, rfl, hpoints⟩ := h
          split_ifs at hpoints
          · exact hpoints.advances
          · obtain ⟨rfl, rfl⟩ := hpoints
            exact .inl ⟨rfl, by rintro op ⟨⟩⟩

section Common

variable {patch? : ℕ → Option Patch} {reply : Reply} {call : Call}

/-- A call that fails leaves the assembler as it was. -/
lemma Serves.eq_of_error (h : a.Serves patch? reply a' call) {e : AssemblyError}
    (he : reply.error? = some e) : a' = a := by
  rcases h.common with ⟨op, -, -, -, heq⟩ | ⟨-, ⟨heq, -⟩ | ⟨hnone, -⟩⟩
  · exact heq
  · exact heq
  · rw [he] at hnone
    cases hnone

/-- The size of the buffer stays, and the program keeps to it. -/
lemma Serves.keeps (h : a.Serves patch? reply a' call) (hhere : a.here ≤ a.buffer.size) :
    a'.buffer.size = a.buffer.size ∧ a'.here ≤ a'.buffer.size := by
  rcases h.common with ⟨op, -, -, -, rfl⟩ | ⟨-, ⟨rfl, -⟩ | ⟨-, offset, bytes, hwritten, hend⟩⟩
  · exact ⟨rfl, hhere⟩
  · exact ⟨rfl, hhere⟩
  · have hfits := hwritten.fits
    have hsize := hwritten.size_eq
    exact ⟨hsize, by omega⟩

/-- That there is no jump is answered to a forward jump whose opcode is not one
of a jump, and to nothing else. -/
lemma Serves.error?_eq_notAJump_iff (h : a.Serves patch? reply a' call) (op : Opcode) :
    reply.error? = some (.notAJump op) ↔
      call = .jumpForward op ∧ op ∉ [Opcode.jmp, .jz, .jnz] := by
  rcases h.common with ⟨op', rfl, hop, herror, -⟩ | ⟨hjump, hadvances⟩
  · rw [herror]
    constructor
    · rintro ⟨⟩
      exact ⟨rfl, hop⟩
    · rintro ⟨⟨⟩, -⟩
      rfl
  · have hne : reply.error? ≠ some (.notAJump op) := by
      rcases hadvances with ⟨-, hne⟩ | ⟨hnone, -⟩
      · exact hne op
      · rw [hnone]
        rintro ⟨⟩
    exact ⟨fun herror => absurd herror hne, fun ⟨hcall, hop⟩ => absurd (hjump op hcall) hop⟩

end Common

end Assembler

/-! ### Several assemblers -/

/-- Assemblers side by side, with the patches that their forward jumps have
answered in order, each until it is used. -/
structure Workshop where
  assemblers : List Assembler
  patches : List (Option Patch)

namespace Workshop

/-- Assemblers of buffers that nothing has been put into. -/
def ofBuffers (buffers : List Bytes) : Workshop :=
  ⟨buffers.map .ofBuffer, []⟩

/-- The patch with a number, unless it has been used. -/
def patch? (w : Workshop) (k : ℕ) : Option Patch :=
  w.patches[k]?.join

/-- The patches that are left after a call. A patch is used up whether or not the
call succeeds. -/
def patchesAfter (w : Workshop) (call : Call) (reply : Reply) : List (Option Patch) :=
  match call, reply with
  | .jumpForward _, .forward (.ok p) => w.patches ++ [some p]
  | .patch k _, _ => w.patches.set k none
  | .patchHere k, _ => w.patches.set k none
  | _, _ => w.patches

/-- Makes a call of the assembler at a place. The patches are numbered in the
order in which they have been answered, by whichever assembler. -/
def perform (w : Workshop) (n : ℕ) (call : Call) : Reply × Workshop :=
  match w.assemblers[n]? with
  | none => (.unavailable, w)
  | some a =>
    let (reply, a') := a.serve w.patch? call
    (reply, ⟨w.assemblers.set n a', w.patchesAfter call reply⟩)

/-- Makes calls, one after the other, each of the assembler at its place. -/
def performAll (w : Workshop) (calls : List (ℕ × Call)) : Workshop :=
  calls.foldl (fun w (n, call) => (w.perform n call).2) w

variable {w : Workshop} {n : ℕ} {a : Assembler} {call : Call}

/-- A call of an assembler that is there is answered by that assembler, and only
this one changes. -/
lemma perform_eq (h : w.assemblers[n]? = some a) (call : Call) :
    w.perform n call = ((a.serve w.patch? call).1,
      ⟨w.assemblers.set n (a.serve w.patch? call).2,
        w.patchesAfter call (a.serve w.patch? call).1⟩) := by
  rw [perform, h]

/-- Calls behind others. -/
lemma performAll_concat (w : Workshop) (calls : List (ℕ × Call)) (n : ℕ) (call : Call) :
    w.performAll (calls ++ [(n, call)]) = ((w.performAll calls).perform n call).2 := by
  rw [performAll, List.foldl_append]
  rfl

/-! ### The patches -/

/-- A patch that is left after a call has been left before, or is what the call
has answered. -/
lemma patch?_perform {k : ℕ} {p : Patch} (h : (w.perform n call).2.patch? k = some p) :
    w.patch? k = some p ∨
      ∃ op, call = .jumpForward op ∧ (w.perform n call).1 = .forward (.ok p) := by
  cases ha : w.assemblers[n]? with
  | none =>
      rw [perform, ha] at h
      exact .inl h
  | some a =>
      rw [perform_eq ha] at h ⊢
      have hset : ∀ k', (w.patches.set k' none)[k]?.join = some p → w.patch? k = some p := by
        intro k' hk'
        rw [List.getElem?_set] at hk'
        split_ifs at hk'
        · cases hk'
        · cases hk'
        · exact hk'
      rw [patch?] at h
      dsimp only [patchesAfter] at h ⊢
      split at h
      next op p' hreply =>
        rw [List.getElem?_append] at h
        split_ifs at h
        · exact .inl h
        · right
          refine ⟨op, rfl, ?_⟩
          rw [hreply]
          cases hk : k - w.patches.length with
          | zero =>
              rw [hk] at h
              cases h
              rfl
          | succ k' =>
              rw [hk] at h
              cases h
      next => exact .inl (hset _ h)
      next => exact .inl (hset _ h)
      next => exact .inl h

/-- A forward jump that answers a patch has been put at the offset of the patch. -/
lemma exists_of_forward {op : Opcode} {p : Patch}
    (h : (w.perform n (.jumpForward op)).1 = .forward (.ok p)) :
    ∃ a, w.assemblers[n]? = some a ∧ p = ⟨op, a.here⟩ ∧ op.IsJump := by
  cases ha : w.assemblers[n]? with
  | none =>
      rw [perform, ha] at h
      cases h
  | some a =>
      rw [perform_eq ha] at h
      exact ⟨a, rfl, Assembler.eq_of_jumpForward (Reply.forward.inj h)⟩

/-- **Where patches come from**: a patch that is left has been answered by a
forward jump, which stands at its offset. -/
lemma exists_of_patch? {buffers : List Bytes} {calls : List (ℕ × Call)} {k : ℕ} {p : Patch}
    (h : ((ofBuffers buffers).performAll calls).patch? k = some p) :
    ∃ before n op a, before ++ [(n, .jumpForward op)] <+: calls ∧
      ((ofBuffers buffers).performAll before).assemblers[n]? = some a ∧
      (((ofBuffers buffers).performAll before).perform n (.jumpForward op)).1
        = .forward (.ok p) ∧
      p = ⟨op, a.here⟩ ∧ op.IsJump := by
  induction calls using List.reverseRecOn with
  | nil => cases h
  | append_singleton calls last ih =>
      obtain ⟨n, call⟩ := last
      rw [performAll_concat] at h
      rcases patch?_perform h with h | ⟨op, rfl, hreply⟩
      · obtain ⟨before, n', op, a, hprefix, hmade⟩ := ih h
        exact ⟨before, n', op, a, hprefix.trans (List.prefix_append _ _), hmade⟩
      · obtain ⟨a, ha, hmade⟩ := exists_of_forward hreply
        exact ⟨calls, n, op, a, List.prefix_rfl, ha, hreply, hmade⟩

/-- All patches that are left are those of jumps. -/
lemma isJump_of_patch? {buffers : List Bytes} {calls : List (ℕ × Call)} {k : ℕ} {p : Patch}
    (h : ((ofBuffers buffers).performAll calls).patch? k = some p) : p.opcode.IsJump := by
  obtain ⟨-, -, op, a, -, -, -, rfl, hop⟩ := exists_of_patch? h
  exact hop

/-! ### The buffers -/

/-- The buffers have kept their sizes, and the programs keep to them. -/
structure Keeps (buffers : List Bytes) (w : Workshop) : Prop where
  sizes_eq : w.assemblers.map (·.buffer.size) = buffers.map (·.size)
  here_le : ∀ a ∈ w.assemblers, a.here ≤ a.buffer.size

/-- Buffers that nothing has been put into. -/
lemma keeps_ofBuffers (buffers : List Bytes) : (ofBuffers buffers).Keeps buffers where
  sizes_eq := by simp [ofBuffers, Assembler.ofBuffer]
  here_le a ha := by
    obtain ⟨buffer, -, rfl⟩ := List.mem_map.mp ha
    exact Nat.zero_le _

section Keeps

variable {buffers : List Bytes} (hbuffers : ∀ b ∈ buffers, b.size < 2 ^ 63)

include hbuffers

/-- No buffer has become larger than one can be. -/
lemma Keeps.size_lt (h : w.Keeps buffers) (ha : a ∈ w.assemblers) : a.buffer.size < 2 ^ 63 := by
  have hmem : a.buffer.size ∈ buffers.map (·.size) := by
    rw [← h.sizes_eq]
    exact List.mem_map_of_mem ha
  obtain ⟨b, hb, hsize⟩ := List.mem_map.mp hmem
  rw [← hsize]
  exact hbuffers b hb

/-- A call keeps the sizes of all buffers. -/
lemma Keeps.perform (h : w.Keeps buffers) (hjumps : ∀ k p, w.patch? k = some p → p.opcode.IsJump)
    (n : ℕ) (call : Call) : (w.perform n call).2.Keeps buffers := by
  cases ha : w.assemblers[n]? with
  | none =>
      rw [Workshop.perform, ha]
      exact h
  | some a =>
      have hmem := List.mem_of_getElem? ha
      obtain ⟨hsize, hhere⟩ :=
        (Assembler.serves_serve (h.size_lt hbuffers hmem) hjumps call).keeps (h.here_le a hmem)
      rw [perform_eq ha]
      constructor
      case sizes_eq =>
        obtain ⟨hlt, rfl⟩ := List.getElem?_eq_some_iff.mp ha
        have hlt' : n < (w.assemblers.map (·.buffer.size)).length := by simpa using hlt
        have hsame := List.set_getElem_self hlt'
        rw [List.getElem_map] at hsame
        rw [List.map_set, hsize, hsame, h.sizes_eq]
      case here_le =>
        intro a' hmem
        rcases List.mem_or_eq_of_mem_set hmem with hmem | rfl
        · exact h.here_le a' hmem
        · exact hhere

/-- **Any calls** keep the sizes of all buffers. -/
theorem keeps_performAll (calls : List (ℕ × Call)) :
    ((ofBuffers buffers).performAll calls).Keeps buffers := by
  induction calls using List.reverseRecOn with
  | nil => exact keeps_ofBuffers buffers
  | append_singleton calls last ih =>
      rw [performAll_concat]
      exact ih.perform hbuffers (fun k p => isJump_of_patch?) last.1 last.2

end Keeps

/-! ### Isolation -/

/-- **Isolation and clean failure**: after any calls of any assemblers every
buffer has kept its size, every program keeps to its buffer, and every patch
that is left has been answered by a forward jump that was put at its offset by
one of the assemblers. The next call of an assembler changes no other one,
leaves this one as it is if it fails, and otherwise does what it has to do: it
puts an instruction, a byte or a jump behind the program exactly if that fits,
and writes the target of a patch, whichever buffer its jump was put into,
exactly if the jump fits this buffer. That an opcode is not one of a jump is
answered to a forward jump with such an opcode, and to nothing else. All this
needs of the buffers is that none is larger than one can be. -/
theorem calls_keep_apart (buffers : List Bytes) (hbuffers : ∀ b ∈ buffers, b.size < 2 ^ 63)
    (calls : List (ℕ × Call)) :
    let w := (ofBuffers buffers).performAll calls
    w.assemblers.map (·.buffer.size) = buffers.map (·.size) ∧
    (∀ a ∈ w.assemblers, a.here ≤ a.buffer.size) ∧
    (∀ k p, w.patch? k = some p →
      ∃ before n op a, before ++ [(n, .jumpForward op)] <+: calls ∧
        ((ofBuffers buffers).performAll before).assemblers[n]? = some a ∧
        (((ofBuffers buffers).performAll before).perform n (.jumpForward op)).1
          = .forward (.ok p) ∧
        p = ⟨op, a.here⟩ ∧ op ∈ [Opcode.jmp, .jz, .jnz]) ∧
    ∀ n a, w.assemblers[n]? = some a → ∀ call,
      ∃ reply a', (w.perform n call).1 = reply ∧
        (w.perform n call).2.assemblers = w.assemblers.set n a' ∧
        (∀ j, j ≠ n → (w.perform n call).2.assemblers[j]? = w.assemblers[j]?) ∧
        (∀ e, reply.error? = some e → a' = a) ∧
        a.Serves w.patch? reply a' call ∧
        ∀ op, reply.error? = some (.notAJump op) ↔
          call = .jumpForward op ∧ op ∉ [Opcode.jmp, .jz, .jnz] := by
  intro w
  have hkeeps : w.Keeps buffers := keeps_performAll hbuffers calls
  refine ⟨hkeeps.sizes_eq, hkeeps.here_le, fun k p => exists_of_patch?, ?_⟩
  intro n a ha call
  have hsize : a.buffer.size < 2 ^ 63 := hkeeps.size_lt hbuffers (List.mem_of_getElem? ha)
  have hjumps : ∀ k p, w.patch? k = some p → p.opcode.IsJump := fun k p => isJump_of_patch?
  have hserves := Assembler.serves_serve hsize hjumps call
  rw [perform_eq ha]
  exact ⟨_, _, rfl, rfl, fun j hj => List.getElem?_set_ne hj.symm,
    fun e => hserves.eq_of_error, hserves, hserves.error?_eq_notAJump_iff⟩

/-- A `JZ` that stands at offset 3 of the first buffer is patched in the second
one, where no program has come so far. -/
theorem calls_keep_apart_across_buffers :
    let w := (ofBuffers [Array.replicate 6 0, Array.replicate 7 238]).performAll
      [(0, .emit .stop), (0, .raw 255), (0, .emit .nop), (0, .jumpForward .jz), (1, .emit .pop)]
    w.patch? 0 = some ⟨.jz, 3⟩ ∧
      (w.perform 1 (.patch 0 4660)).2.assemblers[0]? = w.assemblers[0]? ∧
      ∃ a', (w.perform 1 (.patch 0 4660)).2.assemblers[1]? = some a' ∧ a'.here = 1 ∧
        a'.buffer.toList = [2, 238, 238, 6, 52, 18, 238] := by
  intro w
  have hpatch : w.patch? 0 = some ⟨.jz, 3⟩ := by decide
  obtain ⟨-, -, -, hcalls⟩ := calls_keep_apart [Array.replicate 6 0, Array.replicate 7 238]
    (by decide)
    [(0, .emit .stop), (0, .raw 255), (0, .emit .nop), (0, .jumpForward .jz), (1, .emit .pop)]
  have hsecond : w.assemblers[1]? = some ⟨#[2, 238, 238, 238, 238, 238, 238], 1⟩ := rfl
  obtain ⟨reply, a', -, hafter, hothers, -, hserves, -⟩ := hcalls 1 _ hsecond (.patch 0 4660)
  refine ⟨hpatch, hothers 0 (by decide), a', ?_⟩
  rw [Assembler.Serves, hpatch] at hserves
  obtain ⟨answer, -, hpoints⟩ := hserves
  rw [Assembler.Points, if_pos (by decide)] at hpoints
  obtain ⟨-, hwritten, hhere⟩ := hpoints
  rw [hafter, hwritten.buffer_eq]
  exact ⟨rfl, hhere, by decide⟩

end Workshop

end Bytecode
