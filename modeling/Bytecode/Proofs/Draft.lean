/-
An assembler with a record of what has been put into it.

* `Piece` and `Call`: what an assembler has accepted, with the offset that
  it has answered, and what it can be asked to do;
* `Draft.perform`: a call. Its answer decides what is recorded, and a patch
  can be used once;
* `Progress`: what a call can come to. Bytes that have not been accepted may be
  left behind the program (`Draft.spilled`);
* `Draft.Sound`: the buffer begins with the pieces, laid out one after the
  other, and every patch that is left belongs to its piece;
* `draft_is_written` (**what was asked for is what is there**): the buffer,
  its listing, and what becomes of patches, after any calls.
-/
import Mathlib
import Bytecode.Assembler.Lemmas
import Bytecode.Listing.Lemmas

namespace Bytecode

/-- What has been put into a buffer at once. -/
inductive Content where
  | instruction (i : Instruction)
  | byte (b : UInt8)
  /-- A forward jump with the target that it has got, or zero, and the patch
  that has been answered for it, unless that has been used. -/
  | jump (op : Opcode) (target : UInt16) (patch? : Option Patch)

/-- The instruction that has been put into a buffer. -/
def Content.instruction? : Content → Option Instruction
  | .instruction i => some i
  | .byte _ => none
  | .jump op target _ => some (.ofOperand op target.toNat)

/-- The bytes that have been put into a buffer. -/
def Content.bytes : Content → List UInt8
  | .instruction i => i.encode
  | .byte b => [b]
  | .jump op target _ => (Instruction.ofOperand op target.toNat).encode

/-- What has been put into a buffer, with the offset that has been answered
for it. -/
structure Piece where
  offset : ℕ
  content : Content

/-- The instruction of a piece, as a listing shows it. -/
def Piece.entry? (piece : Piece) : Option Entry :=
  piece.content.instruction?.map fun i => ⟨piece.offset, i⟩

/-- The calls of an assembler. A patch is named by the place that its jump
has among the pieces. -/
inductive Call where
  | emit (i : Instruction)
  /-- The emitter of its own that the instruction has. -/
  | typed (i : Instruction)
  | raw (byte : UInt8)
  | label
  | jumpForward (op : Opcode)
  | patch (k : ℕ) (target : UInt16)
  | patchHere (k : ℕ)
  deriving DecidableEq

/-- The answers of an assembler. -/
inductive Reply where
  | offset (answer : Except AssemblyError ℕ)
  | target (answer : Except AssemblyError UInt16)
  | forward (answer : Except AssemblyError Patch)
  | patched (answer : Except AssemblyError Unit)
  /-- There is no such patch, or it has been used. -/
  | unavailable
  deriving DecidableEq

/-- An assembler with what it has accepted so far, in order. -/
structure Draft where
  assembler : Assembler
  pieces : List Piece

namespace Draft

/-- A buffer that nothing has been put into. -/
def ofBuffer (buffer : Bytes) : Draft :=
  ⟨.ofBuffer buffer, []⟩

/-- The instructions that have been accepted, with their offsets. -/
def entries (d : Draft) : List Entry :=
  d.pieces.filterMap Piece.entry?

/-- The bytes of all that has been accepted. -/
def bytes (d : Draft) : List UInt8 :=
  d.pieces.flatMap (·.content.bytes)

/-- The target of a forward jump. -/
def target? (d : Draft) (k : ℕ) : Option UInt16 :=
  match d.pieces[k]? with
  | some ⟨_, .jump _ target _⟩ => some target
  | _ => none

/-- The patch of a forward jump, unless it has been used. -/
def patch? (d : Draft) (k : ℕ) : Option Patch :=
  match d.pieces[k]? with
  | some ⟨_, .jump _ _ patch?⟩ => patch?
  | _ => none

/-- Records what has been accepted at the offset that has been answered. -/
def put (d : Draft) (content : Content) :
    Except AssemblyError ℕ × Assembler → Reply × Draft
  | (.ok offset, a) => (.offset (.ok offset), ⟨a, d.pieces ++ [⟨offset, content⟩]⟩)
  | (.error e, a) => (.offset (.error e), ⟨a, d.pieces⟩)

/-- Uses a patch, whether or not it succeeds. If it does, the target of its
jump is recorded. -/
def usePatch (d : Draft) (k : ℕ) (target : UInt16)
    (f : Patch → Except AssemblyError Unit × Assembler) : Reply × Draft :=
  match d.pieces[k]? with
  | some ⟨offset, .jump op old (some p)⟩ =>
    match f p with
    | (.ok (), a) => (.patched (.ok ()), ⟨a, d.pieces.set k ⟨offset, .jump op target none⟩⟩)
    | (.error e, a) => (.patched (.error e), ⟨a, d.pieces.set k ⟨offset, .jump op old none⟩⟩)
  | _ => (.unavailable, d)

/-- Makes a call. -/
def perform (d : Draft) : Call → Reply × Draft
  | .emit i => d.put (.instruction i) (d.assembler.emit i)
  | .typed i => d.put (.instruction i) (d.assembler.typed i)
  | .raw byte => d.put (.byte byte) (d.assembler.raw byte)
  | .label => (.target d.assembler.label, d)
  | .jumpForward op =>
    match d.assembler.jumpForward op with
    | (.ok p, a) => (.forward (.ok p), ⟨a, d.pieces ++ [⟨p.offset, .jump op 0 (some p)⟩]⟩)
    | (.error e, a) => (.forward (.error e), ⟨a, d.pieces⟩)
  | .patch k target => d.usePatch k target (d.assembler.patch · target)
  | .patchHere k => d.usePatch k (UInt16.ofNat d.assembler.here) d.assembler.patchHere

/-- Makes calls, one after the other. -/
def performAll (d : Draft) (calls : List Call) : Draft :=
  calls.foldl (fun d call => (d.perform call).2) d

/-! ### What a call can come to -/

/-- The patch that comes with a content belongs to it. -/
def Belongs (offset : ℕ) (content : Content) : Prop :=
  ∀ op target p, content = .jump op target (some p) → p = ⟨op, offset⟩ ∧ op.IsJump

/-- A draft with something behind the rest. -/
def appended (d : Draft) (content : Content) : Draft where
  assembler := d.assembler.appended content.bytes
  pieces := d.pieces ++ [⟨d.assembler.free, content⟩]

/-- A draft with bytes behind the rest that have not been accepted. -/
def spilled (d : Draft) (bytes : List UInt8) : Draft where
  assembler := d.assembler.spilled bytes
  pieces := d.pieces

/-- There is room for something behind the rest. -/
def Fits (d : Draft) (content : Content) : Prop :=
  d.assembler.Fits content.bytes.length

/-- A forward jump that is put behind the rest, with its patch. -/
def pending (d : Draft) (op : Opcode) : Content :=
  .jump op 0 (some ⟨op, d.assembler.free⟩)

/-- A jump has got its target at the offset of a patch, or still has the old
one. -/
def Aims (a : Assembler) (p : Patch) (old target : UInt16) (a' : Assembler) : Prop :=
  target = old ∧ a' = a ∨
    p.offset + (p.bytes target).length ≤ a.buffer.size ∧
      a' = a.overwritten p.offset (p.bytes target)

/-- What a call can come to. -/
inductive Progress (d : Draft) (call : Call) (d' : Draft) : Prop
  /-- Nothing has been accepted, whatever has been written behind the rest. -/
  | spilled (bytes : List UInt8)
      (hroom : d.assembler.free ≤ d.assembler.buffer.size →
        d.assembler.free + bytes.length ≤ d.assembler.buffer.size)
      (h : d' = d.spilled bytes)
  /-- Something has been put behind the rest. -/
  | put (content : Content) (hbyte : ∀ b, content = .byte b → call = .raw b)
      (hbelongs : Belongs d.assembler.free content) (hfit : d.Fits content)
      (h : d' = d.appended content)
  /-- A patch has been used, and its jump has got another target or not. -/
  | used (before after : List Piece) (offset : ℕ) (op : Opcode) (old target : UInt16) (p : Patch)
      (a : Assembler)
      (hpieces : d.pieces = before ++ ⟨offset, .jump op old (some p)⟩ :: after)
      (haims : Aims d.assembler p old target a)
      (h : d' = ⟨a, before ++ ⟨offset, .jump op target none⟩ :: after⟩)

/-- The end of the program stays. -/
lemma Aims.free_eq {a a' : Assembler} {p : Patch} {old target : UInt16}
    (h : Aims a p old target a') : a'.free = a.free := by
  rcases h with ⟨-, rfl⟩ | ⟨-, rfl⟩
  · rfl
  · rfl

/-- A call that changes nothing. -/
lemma Progress.same (d : Draft) (call : Call) : Progress d call d :=
  .spilled [] id rfl

/-- What fits is put behind the rest. -/
lemma put_of_fits {d : Draft} {content : Content} (hfit : d.Fits content) :
    d.put content (d.assembler.append content.bytes)
      = (.offset (.ok d.assembler.free), d.appended content) := by
  rw [Assembler.append_of_fits hfit]
  rfl

/-- What does not fit is not accepted. -/
lemma put_of_not_fits {d : Draft} {content : Content} (hfit : ¬ d.Fits content) :
    d.put content (d.assembler.append content.bytes)
      = (.offset (.error .bufferTooSmall), d.spilled (d.assembler.spill content.bytes)) := by
  rw [Assembler.append_of_not_fits hfit]
  rfl

/-- The calls that put something that is known when they are made. -/
inductive PutsAtOnce : Call → Content → Prop
  | emit (i : Instruction) : PutsAtOnce (.emit i) (.instruction i)
  | typed (i : Instruction) : PutsAtOnce (.typed i) (.instruction i)
  | raw (b : UInt8) : PutsAtOnce (.raw b) (.byte b)

/-- They all put its bytes. -/
lemma PutsAtOnce.perform_eq {call : Call} {content : Content} (h : PutsAtOnce call content)
    (d : Draft) : d.perform call = d.put content (d.assembler.append content.bytes) := by
  cases h with
  | emit i => rw [perform, Assembler.emit_eq_append, Content.bytes]
  | typed i => rw [perform, Assembler.typed_eq_emit, Assembler.emit_eq_append, Content.bytes]
  | raw b => rw [perform, Assembler.raw_eq_append, Content.bytes]

/-- What they put comes without a patch. -/
lemma PutsAtOnce.patchless {call : Call} {content : Content} (h : PutsAtOnce call content)
    (op : Opcode) (target : UInt16) (p : Patch) : content ≠ .jump op target (some p) := by
  cases h with
  | emit i => rintro ⟨⟩
  | typed i => rintro ⟨⟩
  | raw b => rintro ⟨⟩

/-- Bytes and instructions come without a patch. -/
lemma belongs_of_patchless {offset : ℕ} {content : Content}
    (h : ∀ op target p, content ≠ .jump op target (some p)) : Belongs offset content :=
  fun op target p hc => absurd hc (h op target p)

/-- What is put at once is put behind the rest, if it fits. -/
lemma PutsAtOnce.progress {call : Call} {content : Content} (h : PutsAtOnce call content)
    (d : Draft) : Progress d call (d.perform call).2 := by
  rw [h.perform_eq]
  by_cases hfit : d.Fits content
  · rw [put_of_fits hfit]
    refine .put content ?_ (belongs_of_patchless h.patchless) hfit rfl
    cases h with
    | emit i => rintro b ⟨⟩
    | typed i => rintro b ⟨⟩
    | raw b =>
        rintro _ ⟨⟩
        rfl
  · rw [put_of_not_fits hfit]
    exact .spilled _ (fun hle => Assembler.free_add_length_spill_le hle _) rfl

/-- A forward jump that fits is put without a target. -/
lemma jumpForward_of_fits {d : Draft} {op : Opcode} (h : op.IsJump)
    (hfit : d.Fits (d.pending op)) :
    d.perform (.jumpForward op)
      = (.forward (.ok ⟨op, d.assembler.free⟩), d.appended (d.pending op)) := by
  have hput : d.assembler.append (Instruction.ofOperand op 0).encode = _ :=
    Assembler.append_of_fits hfit
  rw [perform, Assembler.jumpForward_of_isJump h, hput]
  rfl

/-- A forward jump that does not fit is not accepted. -/
lemma jumpForward_of_not_fits {d : Draft} {op : Opcode} (h : op.IsJump)
    (hfit : ¬ d.Fits (d.pending op)) :
    d.perform (.jumpForward op) = (.forward (.error .bufferTooSmall),
      d.spilled (d.assembler.spill (d.pending op).bytes)) := by
  have hput : d.assembler.append (Instruction.ofOperand op 0).encode = _ :=
    Assembler.append_of_not_fits hfit
  rw [perform, Assembler.jumpForward_of_isJump h, hput]
  rfl

/-- What is no jump is not put. -/
lemma jumpForward_of_not_isJump {op : Opcode} (h : ¬ op.IsJump) (d : Draft) :
    d.perform (.jumpForward op) = (.forward (.error (.notAJump op)), d) := by
  rw [perform, Assembler.jumpForward_of_not_isJump h]

/-- A forward jump is put behind the rest, if it fits. -/
lemma progress_jumpForward (d : Draft) (op : Opcode) :
    Progress d (.jumpForward op) (d.perform (.jumpForward op)).2 := by
  by_cases hop : op.IsJump
  · by_cases hfit : d.Fits (d.pending op)
    · rw [jumpForward_of_fits hop hfit]
      refine .put (d.pending op) (by rintro b ⟨⟩) ?_ hfit rfl
      rintro op' target p ⟨⟩
      exact ⟨rfl, hop⟩
    · rw [jumpForward_of_not_fits hop hfit]
      exact .spilled _ (fun hle => Assembler.free_add_length_spill_le hle _) rfl
  · rw [jumpForward_of_not_isJump hop]
    exact .same d _

/-- A list splits at each of its places. -/
lemma eq_append_of_getElem? {α : Type} {xs : List α} {k : ℕ} {x : α} (h : xs[k]? = some x) :
    ∃ before after, xs = before ++ x :: after ∧ before.length = k := by
  obtain ⟨hlt, rfl⟩ := List.getElem?_eq_some_iff.mp h
  refine ⟨xs.take k, xs.drop (k + 1), ?_, ?_⟩
  · rw [← List.drop_eq_getElem_cons hlt, List.take_append_drop]
  · rw [List.length_take, min_eq_left hlt.le]

/-- A use of a patch fails and changes nothing, or writes the jump with its
target. -/
def Writes (a : Assembler) (target : UInt16)
    (f : Patch → Except AssemblyError Unit × Assembler) : Prop :=
  ∀ p, (∃ e, f p = (.error e, a)) ∨
    p.offset + (p.bytes target).length ≤ a.buffer.size ∧
      f p = (.ok (), a.overwritten p.offset (p.bytes target))

/-- Giving a target writes it. -/
lemma writes_patch (a : Assembler) (target : UInt16) : Writes a target (a.patch · target) := by
  intro p
  dsimp only
  by_cases hop : p.opcode.IsJump
  · rw [Assembler.patch_of_isJump hop]
    split_ifs with hfit
    · exact .inr ⟨hfit, rfl⟩
    · exact .inl ⟨_, rfl⟩
  · rw [Assembler.patch, Instruction.jumpTo?_of_not_isJump hop]
    exact .inl ⟨_, rfl⟩

/-- Giving the next offset as a target writes it. -/
lemma writes_patchHere (a : Assembler) : Writes a (UInt16.ofNat a.here) a.patchHere := by
  intro p
  rw [Assembler.patchHere, Assembler.label]
  split_ifs with hlow
  · exact writes_patch a _ p
  · exact .inl ⟨_, rfl⟩

/-- The use of a patch. -/
lemma progress_usePatch (d : Draft) (call : Call) (k : ℕ) {target : UInt16}
    {f : Patch → Except AssemblyError Unit × Assembler} (hf : Writes d.assembler target f) :
    Progress d call (d.usePatch k target f).2 := by
  rw [usePatch]
  split
  next offset op old p hk =>
    obtain ⟨before, after, hpieces, rfl⟩ := eq_append_of_getElem? hk
    have hset : ∀ piece, d.pieces.set before.length piece = before ++ piece :: after := by
      intro piece
      rw [hpieces]
      simp
    rcases hf p with ⟨e, he⟩ | ⟨hfit, hok⟩
    · rw [he]
      exact .used before after offset op old old p _ hpieces (.inl ⟨rfl, rfl⟩)
        (by dsimp only; rw [hset])
    · rw [hok]
      exact .used before after offset op old target p _ hpieces (.inr ⟨hfit, rfl⟩)
        (by dsimp only; rw [hset])
  next => exact .same d _

/-- **What a call can come to.** -/
theorem progress_perform (d : Draft) (call : Call) : Progress d call (d.perform call).2 := by
  cases call with
  | emit i => exact (PutsAtOnce.emit i).progress d
  | typed i => exact (PutsAtOnce.typed i).progress d
  | raw byte => exact (PutsAtOnce.raw byte).progress d
  | label => exact .same d _
  | jumpForward op => exact d.progress_jumpForward op
  | patch k target => exact d.progress_usePatch _ k (writes_patch d.assembler target)
  | patchHere k => exact d.progress_usePatch _ k (writes_patchHere d.assembler)

/-! ### What is asked for is what is there -/

/-- The pieces begin at an offset, and each one begins where the one before
it ends. -/
def LaidOut : ℕ → List Piece → Prop
  | _, [] => True
  | offset, piece :: rest =>
    piece.offset = offset ∧ LaidOut (offset + piece.content.bytes.length) rest

/-- Pieces behind other pieces begin where those end. -/
lemma laidOut_append {offset : ℕ} {before after : List Piece} :
    LaidOut offset (before ++ after) ↔ LaidOut offset before ∧
      LaidOut (offset + (before.flatMap (·.content.bytes)).length) after := by
  induction before generalizing offset with
  | nil => simp [LaidOut]
  | cons piece rest ih => simp [LaidOut, ih, and_assoc, Nat.add_assoc]

/-- The buffer begins with the bytes of the pieces, and every patch that is
left belongs to its piece. -/
structure Sound (d : Draft) : Prop where
  free_eq : d.assembler.free = d.bytes.length
  bytes_prefix : d.bytes <+: d.assembler.buffer.toList
  laidOut : LaidOut 0 d.pieces
  belongs : ∀ piece ∈ d.pieces, Belongs piece.offset piece.content

/-- A buffer is sound before anything is put into it. -/
lemma sound_ofBuffer (buffer : Bytes) : (ofBuffer buffer).Sound :=
  ⟨rfl, List.nil_prefix, trivial, by rintro _ ⟨⟩⟩

/-- The buffer up to the end of the program. -/
lemma Sound.take_eq {d : Draft} (h : d.Sound) :
    d.assembler.buffer.toList.take d.assembler.here = d.bytes := by
  obtain ⟨rest, hrest⟩ := h.bytes_prefix
  rw [← hrest, Assembler.here, h.free_eq, List.take_left]

/-- A patch that is left is that of its jump. -/
lemma Sound.patch_eq {d : Draft} (h : d.Sound) {before after : List Piece} {offset : ℕ}
    {op : Opcode} {old : UInt16} {p : Patch}
    (hpieces : d.pieces = before ++ ⟨offset, .jump op old (some p)⟩ :: after) :
    p = ⟨op, offset⟩ ∧ op.IsJump :=
  h.belongs _ (hpieces ▸ List.mem_append_cons_self) op old p rfl

/-- The program lies within the buffer. -/
lemma Sound.free_le {d : Draft} (h : d.Sound) : d.assembler.free ≤ d.assembler.buffer.size := by
  rw [h.free_eq, ← Array.length_toList]
  exact h.bytes_prefix.length_le

/-- What is written behind the rest leaves the rest where it is. -/
lemma Sound.toList_overwrite {d : Draft} (h : d.Sound) {bytes : List UInt8}
    (hroom : d.assembler.free + bytes.length ≤ d.assembler.buffer.size) :
    (d.assembler.buffer.overwrite d.assembler.free bytes).toList = d.bytes ++ bytes ++
      d.assembler.buffer.toList.drop (d.assembler.free + bytes.length) := by
  have hfront : d.assembler.buffer.toList.take d.assembler.free = d.bytes := h.take_eq
  rw [Bytes.toList_overwrite _ hroom, hfront]

/-- Bytes that have not been accepted leave a sound draft sound. -/
lemma Sound.spilled {d : Draft} (h : d.Sound) {bytes : List UInt8}
    (hroom : d.assembler.free + bytes.length ≤ d.assembler.buffer.size) :
    (d.spilled bytes).Sound where
  free_eq := h.free_eq
  bytes_prefix := by
    change d.bytes <+: (d.assembler.buffer.overwrite d.assembler.free bytes).toList
    rw [h.toList_overwrite hroom, List.append_assoc]
    exact List.prefix_append _ _
  laidOut := h.laidOut
  belongs := h.belongs

/-- The bytes of what has been put behind the rest come behind theirs. -/
lemma bytes_appended (d : Draft) (content : Content) :
    (d.appended content).bytes = d.bytes ++ content.bytes := by
  simp [appended, bytes]

/-- Something behind the rest leaves a sound draft sound. -/
lemma Sound.put {d : Draft} (h : d.Sound) {content : Content}
    (hbelongs : Belongs d.assembler.free content) (hfit : d.Fits content) :
    (d.appended content).Sound where
  free_eq := by
    rw [bytes_appended, List.length_append, ← h.free_eq]
    rfl
  bytes_prefix := by
    change _ <+: (d.assembler.buffer.overwrite d.assembler.free content.bytes).toList
    rw [bytes_appended, h.toList_overwrite hfit.1]
    exact List.prefix_append _ _
  laidOut := by
    rw [appended, laidOut_append, Nat.zero_add]
    exact ⟨h.laidOut, h.free_eq, trivial⟩
  belongs := by
    intro piece hmem
    rcases List.mem_append.mp hmem with hmem | hmem
    · exact h.belongs piece hmem
    · rw [List.mem_singleton.mp hmem]
      exact hbelongs

/-- A jump takes as many bytes with any target. -/
lemma length_bytes_jump (op : Opcode) (target target' : UInt16) (patch? patch?' : Option Patch) :
    (Content.jump op target patch?).bytes.length
      = (Content.jump op target' patch?').bytes.length := by
  simp [Content.bytes, Instruction.size]

/-- The use of a patch writes over its own jump, and leaves what is behind the
pieces where it is. -/
lemma Sound.toList_used {d : Draft} (h : d.Sound) {before after : List Piece} {offset : ℕ}
    {op : Opcode} {old target : UInt16} {p : Patch} {a : Assembler}
    (hpieces : d.pieces = before ++ ⟨offset, .jump op old (some p)⟩ :: after)
    (haims : Aims d.assembler p old target a)
    {rest : List UInt8} (hrest : d.bytes ++ rest = d.assembler.buffer.toList) :
    bytes ⟨a, before ++ ⟨offset, .jump op target none⟩ :: after⟩ ++ rest = a.buffer.toList := by
  have hlength := length_bytes_jump op old target (some p) none
  have hlaidOut := h.laidOut
  rw [hpieces, laidOut_append, Nat.zero_add] at hlaidOut
  obtain ⟨-, hoffset, -⟩ := hlaidOut
  dsimp only at hoffset
  obtain ⟨rfl, -⟩ := h.patch_eq hpieces
  simp only [bytes, hpieces, List.flatMap_append, List.flatMap_cons,
    List.append_assoc] at hrest
  rcases haims with ⟨rfl, rfl⟩ | ⟨hfit, rfl⟩
  · rw [← hrest]
    simp [bytes, Content.bytes]
  · -- the jump stands behind the pieces before it, and has kept its size
    have hjump : Patch.bytes ⟨op, offset⟩ target = (Content.jump op target none).bytes := rfl
    rw [Assembler.overwritten, Bytes.toList_overwrite _ hfit, ← hrest, hoffset, List.take_left,
      ← hoffset, hjump, ← hlength, hoffset, List.drop_append]
    simp [bytes, List.append_assoc]

/-- The use of a patch leaves a sound draft sound. -/
lemma Sound.used {d : Draft} (h : d.Sound) {before after : List Piece} {offset : ℕ} {op : Opcode}
    {old target : UInt16} {p : Patch} {a : Assembler}
    (hpieces : d.pieces = before ++ ⟨offset, .jump op old (some p)⟩ :: after)
    (haims : Aims d.assembler p old target a) :
    Sound ⟨a, before ++ ⟨offset, .jump op target none⟩ :: after⟩ := by
  have hlength := length_bytes_jump op old target (some p) none
  have hlaidOut := h.laidOut
  rw [hpieces, laidOut_append, Nat.zero_add] at hlaidOut
  obtain ⟨hbefore, hoffset, hafter⟩ := hlaidOut
  dsimp only at hoffset hafter
  constructor
  case free_eq =>
    have hfree := h.free_eq
    rw [← haims.free_eq] at hfree
    simp only [bytes, hpieces, List.flatMap_append, List.flatMap_cons,
      List.length_append] at hfree ⊢
    omega
  case bytes_prefix =>
    obtain ⟨rest, hrest⟩ := h.bytes_prefix
    exact ⟨rest, h.toList_used hpieces haims hrest⟩
  case laidOut =>
    rw [laidOut_append, Nat.zero_add]
    exact ⟨hbefore, hoffset, by rw [← hlength]; exact hafter⟩
  case belongs =>
    have hall := h.belongs
    simp only [hpieces, List.mem_append, List.mem_cons] at hall
    intro piece hmem
    simp only [List.mem_append, List.mem_cons] at hmem
    rcases hmem with hmem | rfl | hmem
    · exact hall piece (.inl hmem)
    · exact belongs_of_patchless (by rintro _ _ _ ⟨⟩)
    · exact hall piece (.inr (.inr hmem))

/-- A call leaves a sound draft sound. -/
lemma Sound.perform {d : Draft} (h : d.Sound) (call : Call) : (d.perform call).2.Sound := by
  cases progress_perform d call with
  | spilled bytes hroom heq => rw [heq]; exact h.spilled (hroom h.free_le)
  | put content _ hbelongs hfit heq => rw [heq]; exact h.put hbelongs hfit
  | used before after offset op old target p a hpieces haims heq =>
      rw [heq]
      exact h.used hpieces haims

/-- What some calls keep is kept by all of them in a row. -/
lemma performAll_induction {P : Draft → Prop} {calls : List Call}
    (hstep : ∀ call ∈ calls, ∀ d, P d → P (d.perform call).2) {d : Draft} (h : P d) :
    P (d.performAll calls) := by
  induction calls generalizing d with
  | nil => exact h
  | cons call rest ih =>
      exact ih (fun call' hmem => hstep call' (List.mem_cons_of_mem _ hmem))
        (hstep call List.mem_cons_self d h)

/-- **Any calls** leave a buffer sound. -/
theorem sound_performAll (buffer : Bytes) (calls : List Call) :
    ((ofBuffer buffer).performAll calls).Sound :=
  performAll_induction (fun call _ _ h => h.perform call) (sound_ofBuffer buffer)

/-! ### Listings -/

/-- No single byte has been put. -/
def ByteFree (d : Draft) : Prop :=
  ∀ piece ∈ d.pieces, ∀ b, piece.content ≠ .byte b

/-- Calls that put no single byte leave none. -/
lemma byteFree_performAll (buffer : Bytes) {calls : List Call} (h : ∀ b, .raw b ∉ calls) :
    ((ofBuffer buffer).performAll calls).ByteFree := by
  refine performAll_induction (fun call hcall d hd => ?_) (by rintro _ ⟨⟩)
  cases progress_perform d call with
  | spilled bytes _ heq => rw [heq]; exact hd
  | put content hbyte _ _ heq =>
      rw [heq]
      intro piece hmem b hb
      rcases List.mem_append.mp hmem with hmem | hmem
      · exact hd piece hmem b hb
      · rw [List.mem_singleton.mp hmem] at hb
        exact h b (hbyte b hb ▸ hcall)
  | used before after offset op old target p a hpieces _ heq =>
      rw [heq]
      intro piece hmem b hb
      rcases List.mem_append.mp hmem with hmem | hmem
      · exact hd piece (hpieces ▸ List.mem_append_left _ hmem) b hb
      · rcases List.mem_cons.mp hmem with rfl | hmem
        · cases hb
        · exact hd piece (hpieces ▸ List.mem_append_right _ (List.mem_cons_of_mem _ hmem)) b hb

/-- Instructions that are laid out are the entries of their listing. -/
lemma filterMap_entry?_eq_layout {pieces : List Piece} {offset : ℕ} (h : LaidOut offset pieces)
    (hbytes : ∀ piece ∈ pieces, ∀ b, piece.content ≠ .byte b) :
    ∃ instructions : List Instruction,
      pieces.filterMap Piece.entry? = Entry.layout offset instructions ∧
        pieces.flatMap (·.content.bytes) = instructions.flatMap Instruction.encode := by
  induction pieces generalizing offset with
  | nil => exact ⟨[], rfl, rfl⟩
  | cons piece rest ih =>
      obtain ⟨hoffset, hrest⟩ := h
      have hone : ∃ i, piece.content.instruction? = some i ∧ piece.content.bytes = i.encode := by
        cases hc : piece.content with
        | instruction i => exact ⟨i, rfl, rfl⟩
        | byte b => exact absurd hc (hbytes piece List.mem_cons_self b)
        | jump op target patch? => exact ⟨_, rfl, rfl⟩
      obtain ⟨i, hi, hencode⟩ := hone
      rw [hencode, Instruction.length_encode] at hrest
      obtain ⟨instructions, hentries, hflat⟩ :=
        ih hrest fun piece' hmem => hbytes piece' (List.mem_cons_of_mem _ hmem)
      refine ⟨i :: instructions, ?_, ?_⟩
      · have hentry : piece.entry? = some ⟨offset, i⟩ := by
          rw [Piece.entry?, hi, hoffset]
          rfl
        rw [List.filterMap_cons_some hentry, hentries, Entry.layout]
      · rw [List.flatMap_cons, hencode, hflat, List.flatMap_cons]

/-- A sound draft without single bytes is listed as its entries. -/
lemma Sound.listing {d : Draft} (h : d.Sound) (hfree : d.ByteFree) :
    d.assembler.finish = (d.entries.map (·.instruction.size)).sum ∧
      Listing.entries (d.assembler.buffer.extract 0 d.assembler.finish) = d.entries.map .ok := by
  obtain ⟨instructions, hentries, hflat⟩ := filterMap_entry?_eq_layout h.laidOut hfree
  have hprogram : (d.assembler.buffer.extract 0 d.assembler.finish).toList
      = instructions.flatMap Instruction.encode := by
    rw [← hflat, Array.toList_extract]
    exact h.take_eq
  constructor
  · rw [entries, hentries, Entry.sum_size_layout, ← hflat]
    exact h.free_eq
  · rw [Listing.entries_eq_layout hprogram, entries, hentries]

/-! ### Patches -/

/-- A patch that is left belongs to a jump among the pieces. -/
lemma getElem?_of_patch? {d : Draft} {k : ℕ} {p : Patch} (h : d.patch? k = some p) :
    ∃ offset op old, d.pieces[k]? = some ⟨offset, .jump op old (some p)⟩ := by
  rw [patch?] at h
  split at h
  next offset op old patch? hk =>
    rw [h] at hk
    exact ⟨offset, op, old, hk⟩
  next => cases h

/-- A jump is always there to be written over by its patch. -/
lemma Sound.patch_fits {d : Draft} (h : d.Sound) {k : ℕ} {p : Patch}
    (hp : d.patch? k = some p) (target : UInt16) :
    p.opcode.IsJump ∧ p.offset + (p.bytes target).length ≤ d.assembler.buffer.size := by
  obtain ⟨offset, op, old, hk⟩ := getElem?_of_patch? hp
  obtain ⟨before, after, hpieces, -⟩ := eq_append_of_getElem? hk
  obtain ⟨rfl, hop⟩ := h.patch_eq hpieces
  have hlaidOut := h.laidOut
  rw [hpieces, laidOut_append, Nat.zero_add] at hlaidOut
  have hlength := length_bytes_jump op old target (some ⟨op, offset⟩) none
  have hjump : Patch.bytes ⟨op, offset⟩ target = (Content.jump op target none).bytes := rfl
  have hsize := h.bytes_prefix.length_le
  simp only [bytes, hpieces, List.flatMap_append, List.flatMap_cons, List.length_append,
    Array.length_toList] at hsize
  obtain ⟨-, hoffset, -⟩ := hlaidOut
  dsimp only at hoffset ⊢
  refine ⟨hop, ?_⟩
  rw [hjump]
  omega

/-- Every patch that is left can be given any target. -/
lemma Sound.perform_patch {d : Draft} (h : d.Sound) {k : ℕ} {p : Patch}
    (hp : d.patch? k = some p) (target : UInt16) :
    (d.perform (.patch k target)).1 = .patched (.ok ()) := by
  obtain ⟨hop, hfit⟩ := h.patch_fits hp target
  obtain ⟨offset, op, old, hk⟩ := getElem?_of_patch? hp
  rw [Draft.perform, usePatch, hk]
  dsimp only
  rw [Assembler.patch_of_isJump hop, if_pos hfit]

/-- A patch that is left can be given the next offset, if that fits a
target. The jump then has it as its target. -/
lemma Sound.perform_patchHere {d : Draft} (h : d.Sound) {k : ℕ} {p : Patch}
    (hp : d.patch? k = some p) :
    (d.perform (.patchHere k)).1 =
        .patched (if d.assembler.here ≤ 65535 then .ok ()
          else .error (.targetOutOfRange d.assembler.here)) ∧
      (d.assembler.here ≤ 65535 → ∃ offset op, (d.perform (.patchHere k)).2.pieces[k]?
        = some ⟨offset, .jump op (UInt16.ofNat d.assembler.here) none⟩) := by
  obtain ⟨offset, op, old, hk⟩ := getElem?_of_patch? hp
  have hlt : k < d.pieces.length := (List.getElem?_eq_some_iff.mp hk).1
  rw [Draft.perform, usePatch, hk]
  dsimp only
  rw [Assembler.patchHere, Assembler.label, Assembler.here]
  by_cases hlow : d.assembler.free < 65536
  · obtain ⟨hop, hfit⟩ := h.patch_fits hp (UInt16.ofNat d.assembler.free)
    rw [if_pos hlow, if_pos (by omega)]
    dsimp only
    rw [Assembler.patch_of_isJump hop, if_pos hfit]
    exact ⟨rfl, fun _ => ⟨offset, op, by simp [hlt]⟩⟩
  · rw [if_neg hlow, if_neg (by omega)]
    exact ⟨rfl, fun h => absurd h (by omega)⟩

/-- A piece without a patch stays as it is. -/
lemma getElem?_performAll_of_patchless {d : Draft} {k : ℕ} {piece : Piece}
    (h : d.pieces[k]? = some piece)
    (hpatchless : ∀ op target p, piece.content ≠ .jump op target (some p)) (calls : List Call) :
    (d.performAll calls).pieces[k]? = some piece := by
  refine performAll_induction (P := fun d => d.pieces[k]? = some piece)
    (fun call _ d hd => ?_) h
  cases progress_perform d call with
  | spilled bytes _ heq => rw [heq]; exact hd
  | put content _ _ _ heq =>
      rw [heq, appended, List.getElem?_append_left (List.getElem?_eq_some_iff.mp hd).1]
      exact hd
  | used before after offset op old target p a hpieces _ heq =>
      -- the patch that is used belongs to another piece
      have hne : before.length ≠ k := by
        rintro rfl
        simp only [hpieces, List.getElem?_append_right le_rfl,
          Nat.sub_self, List.getElem?_cons_zero, Option.some.injEq] at hd
        exact hpatchless op old p (by rw [← hd])
      rw [heq]
      rw [hpieces] at hd
      have hset : (before ++ ⟨offset, .jump op old (some p)⟩ :: after).set before.length
          ⟨offset, .jump op target none⟩ = before ++ ⟨offset, .jump op target none⟩ :: after := by
        simp
      rw [← hset, List.getElem?_set_ne hne]
      exact hd

/-- A jump whose patch has been used keeps its target. -/
lemma getElem?_performAll_of_used {d : Draft} {k offset : ℕ} {op : Opcode} {target : UInt16}
    (h : d.pieces[k]? = some ⟨offset, .jump op target none⟩) (calls : List Call) :
    (d.performAll calls).pieces[k]? = some ⟨offset, .jump op target none⟩ :=
  getElem?_performAll_of_patchless h (by rintro _ _ _ ⟨⟩) calls

/-- A piece keeps its offset. -/
lemma offset_performAll {d : Draft} {k offset : ℕ}
    (h : d.pieces[k]?.map Piece.offset = some offset) (calls : List Call) :
    (d.performAll calls).pieces[k]?.map Piece.offset = some offset := by
  refine performAll_induction (P := fun d => d.pieces[k]?.map Piece.offset = some offset)
    (fun call _ d hd => ?_) h
  rw [← List.getElem?_map] at hd ⊢
  cases progress_perform d call with
  | spilled bytes _ heq => rw [heq]; exact hd
  | put content _ _ _ heq =>
      rw [heq, appended, List.map_append,
        List.getElem?_append_left (List.getElem?_eq_some_iff.mp hd).1]
      exact hd
  | used before after offset' op' old target' p a hpieces _ heq =>
      rw [heq]
      simpa [hpieces] using hd

/-- The next piece is put at the next offset, whatever is asked for
before. -/
lemma offset_next {d : Draft} {calls : List Call} {piece : Piece}
    (h : (d.performAll calls).pieces[d.pieces.length]? = some piece) :
    piece.offset = d.assembler.here := by
  induction calls generalizing d with
  | nil =>
      rw [performAll, List.foldl_nil, List.getElem?_eq_none le_rfl] at h
      cases h
  | cons call rest ih =>
      change ((d.perform call).2.performAll rest).pieces[d.pieces.length]? = some piece at h
      cases progress_perform d call with
      | spilled bytes _ heq =>
          rw [heq] at h
          exact ih (d := d.spilled bytes) h
      | put content _ _ _ heq =>
          have hnew : (d.perform call).2.pieces[d.pieces.length]?.map Piece.offset
              = some d.assembler.here := by
            rw [heq]
            simp [appended, Assembler.here]
          have hkeep := offset_performAll hnew rest
          rw [h] at hkeep
          exact Option.some.inj hkeep
      | used before after offset op old target p a hpieces haims heq =>
          have hlength : (d.perform call).2.pieces.length = d.pieces.length := by
            rw [heq, hpieces]
            simp
          have hfree : (d.perform call).2.assembler.here = d.assembler.here := by
            rw [heq]
            exact haims.free_eq
          rw [← hlength] at h
          rw [← hfree]
          exact ih h

/-- **What was asked for is what is there**: after any calls the buffer
begins with all that has been accepted, in order, and if no single byte was
asked for, its listing shows the accepted instructions at the offsets that
were answered and nothing else. Every patch that is left can be given any
target, and the next offset exactly if that fits a target. The jump then
leads to what is accepted next. -/
theorem draft_is_written (buffer : Bytes) (calls : List Call) :
    let d := (ofBuffer buffer).performAll calls
    d.assembler.buffer.toList.take d.assembler.here = d.bytes ∧
    ((∀ b, .raw b ∉ calls) →
      d.assembler.finish = (d.entries.map (·.instruction.size)).sum ∧
      Listing.entries (d.assembler.buffer.extract 0 d.assembler.finish)
        = d.entries.map .ok) ∧
    ∀ k p, d.patch? k = some p →
      (∀ target, (d.perform (.patch k target)).1 = .patched (.ok ())) ∧
      (d.perform (.patchHere k)).1 =
        .patched (if d.assembler.here ≤ 65535 then .ok ()
          else .error (.targetOutOfRange d.assembler.here)) ∧
      (d.assembler.here ≤ 65535 → ∀ later,
        let d' := (d.perform (.patchHere k)).2.performAll later
        ∃ target, d'.target? k = some target ∧ target.toNat = d.assembler.here ∧
          ∀ piece, d'.pieces[d.pieces.length]? = some piece → piece.offset = target.toNat) := by
  intro d
  have hsound : d.Sound := sound_performAll buffer calls
  refine ⟨hsound.take_eq, fun hraw => hsound.listing (byteFree_performAll buffer hraw), ?_⟩
  intro k p hp
  obtain ⟨hreply, hused⟩ := hsound.perform_patchHere hp
  refine ⟨hsound.perform_patch hp, hreply, fun hlow later => ?_⟩
  intro d'
  obtain ⟨offset, op, hk⟩ := hused hlow
  have hk' : d'.pieces[k]? = some ⟨offset, .jump op (UInt16.ofNat d.assembler.here) none⟩ :=
    getElem?_performAll_of_used hk later
  have hhere : (UInt16.ofNat d.assembler.here).toNat = d.assembler.here := by
    rw [UInt16.toNat_ofNat']
    omega
  refine ⟨UInt16.ofNat d.assembler.here, ?_, hhere, fun piece hpiece => ?_⟩
  · rw [target?, hk']
  · have hnext : (d.performAll (.patchHere k :: later)).pieces[d.pieces.length]? = some piece :=
      hpiece
    rw [hhere]
    exact offset_next hnext

/-- A forward jump over `PUSH 5` that is patched before `STOP`, after a
`PUSH` that does not fit. -/
theorem draft_is_written_of_forward_jump :
    let d := (ofBuffer (Array.replicate 10 0)).performAll
      [.jumpForward .jz, .emit (.push 5), .emit (.push 6), .patchHere 0, .emit .stop]
    d.assembler.finish = 9 ∧
      Listing.entries (d.assembler.buffer.extract 0 d.assembler.finish)
        = [.ok ⟨0, .jz 8⟩, .ok ⟨3, .push 5⟩, .ok ⟨8, .stop⟩] := by
  intro d
  have hwritten := draft_is_written (Array.replicate 10 0)
    [.jumpForward .jz, .emit (.push 5), .emit (.push 6), .patchHere 0, .emit .stop]
  have hentries : d.entries = [⟨0, .jz 8⟩, ⟨3, .push 5⟩, ⟨8, .stop⟩] := by decide
  obtain ⟨hfinish, hlisting⟩ := hwritten.2.1 (by simp)
  refine ⟨hfinish.trans ?_, hlisting.trans ?_⟩
  · rw [hentries]
    decide
  · rw [hentries]
    rfl

end Draft

end Bytecode
