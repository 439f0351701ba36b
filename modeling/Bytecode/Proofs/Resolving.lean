/-
Forward jumps that get their targets later, and jumps that have theirs at once.

* `Draft.givenTarget?`: the target that a forward jump is given;
* `Draft.resolved`: calls in which such jumps are emitted with their targets,
  and no patch is used;
* `Sound.exists_settled`: what becomes of a forward jump;
* `Settles`: a draft beside another one whose jumps have their targets already,
  with the same behind the pieces;
* `patched_jumps_are_direct` (**a patched jump is a direct jump**): the same
  buffer and the same answers with the targets given at once, and the same buffer
  with the patches used in another order.
-/
import Mathlib
import Bytecode.Proofs.Patching

namespace Bytecode.Draft

/-- The jump that a call gives a target, and the target, if it succeeds. -/
def gives? (d : Draft) (c : Call) : Option (ℕ × UInt16) :=
  match c.aim? d.assembler, (d.perform c).1 with
  | some (k, .ok target), .patched (.ok ()) => some (k, target)
  | _, _ => none

/-- The target that a jump is given by calls. -/
def givenTarget? (d : Draft) (k : ℕ) : List Call → Option UInt16
  | [] => none
  | c :: rest =>
    match d.gives? c with
    | some (k', target) => if k' = k then some target else (d.perform c).2.givenTarget? k rest
    | none => (d.perform c).2.givenTarget? k rest

/-- What stands for a call if all targets are given at once: nothing for the use
of a patch, and the jump with its target for a forward jump that is given one by
the calls that follow. -/
def standIn? (d : Draft) (c : Call) (rest : List Call) : Option Call :=
  match c.uses?, (d.perform c).1 with
  | some _, _ => none
  | none, .forward (.ok p) =>
    match (d.perform c).2.givenTarget? d.pieces.length rest with
    | some target => some (.emit (.ofOperand p.opcode target.toNat))
    | none => some c
  | none, _ => some c

/-- The calls with all targets given at once. -/
def resolved (d : Draft) : List Call → List Call
  | [] => []
  | c :: rest => (d.standIn? c rest).toList ++ (d.perform c).2.resolved rest

variable {d e : Draft}

/-! ### What becomes of a forward jump -/

/-- A jump is given a target by a call that uses its patch. -/
lemma uses?_of_gives? {c : Call} {k : ℕ} {target : UInt16} (h : d.gives? c = some (k, target)) :
    c.uses? = some k := by
  rw [gives?] at h
  split at h
  next haim _ =>
    cases h
    exact Call.uses?_of_aim? haim
  next => cases h

/-- A call that uses the patch of another jump gives this one no target. -/
lemma givenTarget?_cons_of_ne {c : Call} {k : ℕ} (hc : c.uses? ≠ some k) (rest : List Call) :
    d.givenTarget? k (c :: rest) = (d.perform c).2.givenTarget? k rest := by
  rw [givenTarget?]
  cases hg : d.gives? c with
  | none => rfl
  | some given =>
      obtain ⟨k', target⟩ := given
      have hk' : c.uses? = some k' := uses?_of_gives? hg
      exact if_neg fun heq => hc (hk'.trans (congrArg some heq))

/-- The use of a patch that is left gives its jump the target, if there is
one. -/
lemma Sound.gives?_eq (h : d.Sound) {c : Call} {k offset : ℕ} {op : Opcode} {old : UInt16}
    {p : Patch} {target : Except AssemblyError UInt16} (hc : c.aim? d.assembler = some (k, target))
    (hk : d.pieces[k]? = some ⟨offset, .jump op old (some p)⟩) :
    d.gives? c = target.toOption.map (k, ·) := by
  rw [gives?, hc, (h.perform_aim hc hk).1]
  cases target with
  | ok t => rfl
  | error e => rfl

/-- A jump whose patch has been used is given no other target. -/
lemma givenTarget?_of_spent {k offset : ℕ} {op : Opcode} {old : UInt16}
    (hk : d.pieces[k]? = some ⟨offset, .jump op old none⟩) (calls : List Call) :
    d.givenTarget? k calls = none := by
  induction calls generalizing d with
  | nil => rfl
  | cons c rest ih =>
      have hrest := ih (getElem?_performAll_of_used hk [c])
      by_cases hc : c.uses? = some k
      · have hspent : d.patch? k = none := by rw [patch?, hk]
        have hgives : d.gives? c = none := by
          rw [gives?, perform_of_patch?_eq_none hc hspent]
          split
          next hreply => cases hreply
          next => rfl
        rw [givenTarget?, hgives]
        exact hrest
      · rw [givenTarget?_cons_of_ne hc]
        exact hrest

/-- **What becomes of a forward jump**: it has the target in the end that it is
given, and keeps the one that it has if it is given none. -/
theorem Sound.exists_settled (h : d.Sound) {k offset : ℕ} {op : Opcode} {old : UInt16} {p : Patch}
    (hk : d.pieces[k]? = some ⟨offset, .jump op old (some p)⟩) (calls : List Call) :
    ∃ patch?, (d.performAll calls).pieces[k]?
      = some ⟨offset, .jump op ((d.givenTarget? k calls).getD old) patch?⟩ := by
  induction calls generalizing d with
  | nil => exact ⟨some p, hk⟩
  | cons c rest ih =>
      have hlt : k < d.pieces.length := (List.getElem?_eq_some_iff.mp hk).1
      by_cases hc : c.uses? = some k
      · -- the first use decides, whether or not there is a target for the jump
        obtain ⟨target, haim⟩ := Call.exists_aim?_eq hc d.assembler
        have hspent : (d.perform c).2.pieces[k]?
            = some ⟨offset, .jump op (target.toOption.getD old) none⟩ := by
          rw [(h.perform_aim haim hk).2.1, List.getElem?_set_self hlt]
        have hgiven : d.givenTarget? k (c :: rest) = target.toOption := by
          rw [givenTarget?, h.gives?_eq haim hk]
          cases target with
          | ok t => exact if_pos rfl
          | error e => exact givenTarget?_of_spent hspent rest
        rw [hgiven]
        exact ⟨none, getElem?_performAll_of_used hspent rest⟩
      · rw [givenTarget?_cons_of_ne hc]
        exact ih (h.perform c) ((h.getElem?_perform hlt hc).trans hk)

/-! ### Targets given at once -/

/-- The calls that use no patch, with their answers. -/
def kept (d : Draft) (calls : List Call) : List (Call × Reply) :=
  (d.transcript calls).filter (·.1.uses?.isNone)

/-- The same answer, which for a jump that is emitted with its target and not
as a forward jump is that it stands at the same offset. -/
inductive SameAnswer : Call × Reply → Call × Reply → Prop
  | same (x : Call × Reply) : SameAnswer x x
  | direct {op : Opcode} (h : op.IsJump) (target : UInt16) (offset : ℕ) :
      SameAnswer (.jumpForward op, .forward (.ok ⟨op, offset⟩))
        (.emit (.ofOperand op target.toNat), .offset (.ok offset))

/-- The bytes that the pieces which are there will have after some calls. -/
def settled (d : Draft) (calls : List Call) : List UInt8 :=
  ((d.performAll calls).pieces.take d.pieces.length).flatMap (·.content.bytes)

/-- What lies before the end of the pieces. -/
def front (d : Draft) : List UInt8 :=
  d.assembler.buffer.toList.take d.assembler.free

/-- Bytes that are put behind the rest lie behind it. -/
lemma front_appended {content : Content} (hfit : d.Fits content) :
    (d.appended content).front = d.front ++ content.bytes := by
  have hfree := Nat.le_of_add_right_le hfit.1
  rw [front, appended, Assembler.appended, Bytes.toList_overwrite _ hfit.1]
  refine List.take_left' ?_
  rw [List.length_append, List.length_take, Array.length_toList, min_eq_left hfree]

/-- Bytes that are not accepted lie behind what lies before the end. -/
lemma front_spilled {bytes : List UInt8}
    (hroom : d.assembler.free + bytes.length ≤ d.assembler.buffer.size) :
    (d.spilled bytes).front = d.front := by
  have hfree := Nat.le_of_add_right_le hroom
  rw [front, front, spilled, Assembler.spilled, Assembler.overwritten,
    Bytes.toList_overwrite _ hroom, List.append_assoc]
  refine List.take_left' ?_
  rw [List.length_take, Array.length_toList, min_eq_left hfree]

/-- A draft and another one of the same size, whose pieces have got the bytes
that those of the first will have after some calls. -/
structure Settles (calls : List Call) (d e : Draft) : Prop where
  sound : d.Sound
  level : Level d e
  front_eq : e.front = d.settled calls

/-- Nothing is settled at first. -/
lemma settles_ofBuffer (buffer : Bytes) (calls : List Call) :
    Settles calls (ofBuffer buffer) (ofBuffer buffer) :=
  ⟨sound_ofBuffer buffer, .refl _, rfl⟩

/-- Without any more calls all is settled. -/
lemma Settles.assembler_eq (h : Settles [] d e) : e.assembler = d.assembler := by
  have hsettled : d.settled [] = d.bytes := by
    change (d.pieces.take d.pieces.length).flatMap (·.content.bytes) = d.bytes
    rw [List.take_length, bytes]
  have hlist : e.assembler.buffer.toList = e.front ++ e.tail := (List.take_append_drop _ _).symm
  have hbuffer : e.assembler.buffer = d.assembler.buffer := by
    apply Array.toList_inj.mp
    rw [hlist, h.front_eq, hsettled, h.level.tail_eq, h.sound.toList_eq]
  have hfree := h.level.free_eq
  obtain ⟨⟨buffer, free⟩, pieces⟩ := d
  obtain ⟨⟨buffer', free'⟩, pieces'⟩ := e
  dsimp only at hbuffer hfree
  rw [hbuffer, hfree]

/-- The use of a patch has been settled before. -/
lemma Settles.used {c : Call} {rest : List Call} (h : Settles (c :: rest) d e) {k : ℕ}
    (hc : c.uses? = some k) : Settles rest (d.perform c).2 e := by
  obtain ⟨hlevel, hlength⟩ : Level d (d.perform c).2 ∧
      (d.perform c).2.pieces.length = d.pieces.length := by
    obtain ⟨target, haim⟩ := Call.exists_aim?_eq hc d.assembler
    cases hp : d.patch? k with
    | none =>
        rw [perform_of_patch?_eq_none hc hp]
        exact ⟨.refl d, rfl⟩
    | some p =>
        obtain ⟨offset, op, old, hk⟩ := getElem?_of_patch? hp
        obtain ⟨-, hpieces, hlevel⟩ := h.sound.perform_aim haim hk
        exact ⟨hlevel, by rw [hpieces, List.length_set]⟩
  have hsettled : (d.perform c).2.settled rest = d.settled (c :: rest) := by
    rw [settled, settled, hlength]
    rfl
  refine ⟨h.sound.perform c, ⟨?_, ?_, ?_⟩, h.front_eq.trans hsettled.symm⟩
  · rw [h.level.free_eq, hlevel.free_eq]
  · rw [h.level.size_eq, hlevel.size_eq]
  · rw [h.level.tail_eq, hlevel.tail_eq]

/-- So has a call by which nothing is accepted. -/
lemma Settles.spilled {c : Call} {rest : List Call} (h : Settles (c :: rest) d e)
    {bytes : List UInt8} (hroom : d.assembler.free + bytes.length ≤ d.assembler.buffer.size)
    (hd : (d.perform c).2 = d.spilled bytes) :
    Settles rest (d.perform c).2 (e.spilled bytes) := by
  have hsettled : (d.perform c).2.settled rest = d.settled (c :: rest) := by
    rw [settled, settled, hd]
    change _ = (((d.perform c).2.performAll rest).pieces.take _).flatMap _
    rw [hd]
    rfl
  refine ⟨h.sound.perform c, hd ▸ h.level.spilled hroom, ?_⟩
  rw [hsettled, ← h.front_eq, front_spilled (by rw [h.level.free_eq, h.level.size_eq]; exact hroom)]

/-- What is put behind the rest is settled if it is put with the bytes that it
will have. -/
lemma Settles.appended {c : Call} {rest : List Call} (h : Settles (c :: rest) d e)
    {content content' : Content} {last : Piece} (hfit : d.Fits content)
    (hput : (d.perform c).2 = d.appended content)
    (hlast : ((d.perform c).2.performAll rest).pieces[d.pieces.length]? = some last)
    (hbytes : content'.bytes = last.content.bytes)
    (hlength : content'.bytes.length = content.bytes.length) :
    Settles rest (d.perform c).2 (e.appended content') := by
  have hpieces : (d.perform c).2.pieces.length = d.pieces.length + 1 := by
    rw [hput]
    simp [Draft.appended]
  have hsettled : (d.perform c).2.settled rest = d.settled (c :: rest) ++ content'.bytes := by
    rw [settled, hpieces, List.take_add_one, hlast, List.flatMap_append, hbytes]
    simp [settled, performAll]
  refine ⟨h.sound.perform c, hput ▸ h.level.appended hlength hfit, ?_⟩
  rw [hsettled, ← h.front_eq, front_appended ((h.level.fits_iff hlength).mpr hfit)]

/-- Nothing stands for the use of a patch. -/
lemma standIn?_of_uses {c : Call} {k : ℕ} (hc : c.uses? = some k) (rest : List Call) :
    d.standIn? c rest = none := by
  rw [standIn?, hc]

/-- A call that answers no patch stands for itself. -/
lemma standIn?_of_reply {c : Call} (hc : c.uses? = none)
    (hreply : ∀ p, (d.perform c).1 ≠ .forward (.ok p)) (rest : List Call) :
    d.standIn? c rest = some c := by
  rw [standIn?, hc]
  generalize (d.perform c).1 = reply at hreply
  cases reply with
  | forward answer =>
      cases answer with
      | ok p => exact absurd rfl (hreply p)
      | error e => rfl
  | _ => rfl

/-- A forward jump is settled by what stands for it: the jump with the target
that it is given, or the forward jump itself. -/
lemma Settles.stands_jump {op : Opcode} {rest : List Call}
    (h : Settles (.jumpForward op :: rest) d e) (hop : op.IsJump) (hfit : d.Fits (d.pending op))
    (he : e.perform (.jumpForward op)
      = (.forward (.ok ⟨op, d.assembler.free⟩), e.appended (d.pending op))) :
    ∃ c', d.standIn? (.jumpForward op) rest = some c' ∧
      SameAnswer (.jumpForward op, (d.perform (.jumpForward op)).1) (c', (e.perform c').1) ∧
      Settles rest (d.perform (.jumpForward op)).2 (e.perform c').2 := by
  have hd := jumpForward_of_fits hop hfit
  have hreply : (d.perform (.jumpForward op)).1 = .forward (.ok ⟨op, d.assembler.free⟩) := by
    rw [hd]
  have hput : (d.perform (.jumpForward op)).2 = d.appended (d.pending op) := by rw [hd]
  have hfirst : (d.perform (.jumpForward op)).2.pieces[d.pieces.length]?
      = some ⟨d.assembler.free, d.pending op⟩ := by
    rw [hput]
    simp [Draft.appended]
  obtain ⟨patch?, hlast⟩ := (h.sound.perform (.jumpForward op)).exists_settled hfirst rest
  rw [standIn?, hreply]
  cases hgiven : (d.perform (.jumpForward op)).2.givenTarget? d.pieces.length rest with
  | none =>
      rw [hgiven] at hlast
      refine ⟨.jumpForward op, rfl, ?_, ?_⟩
      · rw [he]
        exact .same _
      · rw [he]
        exact h.appended hfit hput hlast rfl rfl
  | some target =>
      rw [hgiven] at hlast
      -- with any target the jump takes as many bytes
      have hlength : (Content.instruction (.ofOperand op target.toNat)).bytes.length
          = (d.pending op).bytes.length := length_bytes_jump op target 0 patch? _
      have hemit : e.perform (.emit (.ofOperand op target.toNat))
          = (.offset (.ok d.assembler.free),
            e.appended (.instruction (.ofOperand op target.toNat))) := by
        rw [← h.level.free_eq, (PutsAtOnce.emit _).perform_eq]
        exact put_of_fits ((h.level.fits_iff hlength).mpr hfit)
      refine ⟨.emit (.ofOperand op target.toNat), rfl, ?_, ?_⟩
      · rw [hemit]
        exact .direct hop target _
      · rw [hemit]
        exact h.appended hfit hput hlast rfl hlength

/-- A call that uses no patch is settled by what stands for it, which is answered
the same. -/
lemma Settles.stands {c : Call} {rest : List Call} (h : Settles (c :: rest) d e)
    (hc : c.uses? = none) :
    ∃ c', d.standIn? c rest = some c' ∧
      SameAnswer (c, (d.perform c).1) (c', (e.perform c').1) ∧
      Settles rest (d.perform c).2 (e.perform c').2 := by
  cases alongside_perform h.level hc with
  | spilled reply hreply bytes hroom hd he =>
      refine ⟨c, standIn?_of_reply hc (by rwa [hd]) rest, ?_, ?_⟩
      · rw [hd, he]
        exact .same _
      · rw [he]
        exact h.spilled (hroom h.sound.free_le) (by rw [hd])
  | put reply hreply content hpatchless hfit hd he =>
      have hput : (d.perform c).2 = d.appended content := by rw [hd]
      have hlast : ((d.perform c).2.performAll rest).pieces[d.pieces.length]?
          = some ⟨d.assembler.free, content⟩ :=
        getElem?_performAll_of_patchless (by rw [hput]; simp [Draft.appended]) hpatchless rest
      refine ⟨c, standIn?_of_reply hc (by rwa [hd]) rest, ?_, ?_⟩
      · rw [hd, he]
        exact .same _
      · rw [he]
        exact h.appended hfit hput hlast rfl rfl
  | jump op hop hcall hfit hd he =>
      subst hcall
      exact h.stands_jump hop hfit he

/-- **Targets given at once**: the calls with all targets given at once leave the
same buffer behind as the calls that give them later, and are answered the
same. -/
theorem Settles.resolved {calls : List Call} (h : Settles calls d e) :
    (e.performAll (d.resolved calls)).assembler = (d.performAll calls).assembler ∧
      List.Forall₂ SameAnswer (d.kept calls) (e.transcript (d.resolved calls)) := by
  induction calls generalizing d e with
  | nil => exact ⟨h.assembler_eq, .nil⟩
  | cons c rest ih =>
      cases hc : c.uses? with
      | some k =>
          have hkept : d.kept (c :: rest) = (d.perform c).2.kept rest := by
            rw [kept, transcript, List.filter_cons_of_neg (by simp [hc]), kept]
          rw [Draft.resolved, standIn?_of_uses hc, hkept]
          exact ih (h.used hc)
      | none =>
          obtain ⟨c', hstand, hsame, hsettles⟩ := h.stands hc
          obtain ⟨hassembler, hanswers⟩ := ih hsettles
          have hkept : d.kept (c :: rest) = (c, (d.perform c).1) :: (d.perform c).2.kept rest := by
            rw [kept, transcript, List.filter_cons_of_pos (by simp [hc]), kept]
          have hresolved : d.resolved (c :: rest) = c' :: (d.perform c).2.resolved rest := by
            rw [Draft.resolved, hstand]
            rfl
          rw [hresolved, hkept]
          exact ⟨hassembler, .cons hsame hanswers⟩

/-- What stands for a call uses no patch. -/
lemma uses?_of_mem_resolved {calls : List Call} {c : Call} (hc : c ∈ d.resolved calls) :
    c.uses? = none := by
  induction calls generalizing d with
  | nil => cases hc
  | cons first rest ih =>
      rcases List.mem_append.mp hc with hc | hc
      · rw [Option.mem_toList, standIn?] at hc
        split at hc
        next => cases hc
        next hu _ =>
          split at hc
          next =>
            cases hc
            rfl
          next =>
            cases hc
            exact hu
        next hu _ =>
          cases hc
          exact hu
      · exact ih hc

/-- **A patched jump is a direct jump**: whatever calls are made of an assembler
over any buffer, if every forward jump that is given a target later is emitted
with that target instead, and no patch is used, the buffer and the size of the
program are the same in the end, and all other calls are answered the same.
Patches may also be used in another order, and earlier or later among the other
calls, as long as each is used once and behind its jump: the buffer and the size
are the same. -/
theorem patched_jumps_are_direct (buffer : Bytes) (calls : List Call) :
    let d := ofBuffer buffer
    ((d.performAll (d.resolved calls)).assembler = (d.performAll calls).assembler ∧
      (∀ c ∈ d.resolved calls, c.uses? = none) ∧
      List.Forall₂ SameAnswer (d.kept calls) (d.transcript (d.resolved calls))) ∧
    ∀ calls', d.Orderly calls → d.Orderly calls' → Rearranged calls calls' →
      (d.performAll calls').assembler = (d.performAll calls).assembler := by
  intro d
  obtain ⟨hassembler, hanswers⟩ := (settles_ofBuffer buffer calls).resolved
  refine ⟨⟨hassembler, fun c hc => uses?_of_mem_resolved hc, hanswers⟩, ?_⟩
  intro calls' ho ho' hr
  rw [(sound_ofBuffer buffer).performAll_rearranged ho ho' hr]

/-- A jump over the rest and a jump back to the start, patched in the one order
and in the other. -/
theorem patched_jumps_are_direct_in_any_order :
    let d := ofBuffer (Array.replicate 13 255)
    let calls : List Call := [.jumpForward .jz, .jumpForward .jmp, .emit (.push 5), .patch 0 11,
      .patch 1 0, .emit .stop]
    let calls' : List Call := [.jumpForward .jz, .jumpForward .jmp, .patch 1 0, .emit (.push 5),
      .emit .stop, .patch 0 11]
    let direct : List Call := [.emit (.jz 11), .emit (.jmp 0), .emit (.push 5), .emit .stop]
    (d.performAll calls).assembler = (d.performAll direct).assembler ∧
      (d.performAll calls').assembler = (d.performAll direct).assembler ∧
      (d.performAll direct).assembler.buffer = #[6, 11, 0, 5, 0, 0, 1, 5, 0, 0, 0, 13, 255] := by
  intro d calls calls' direct
  obtain ⟨⟨hassembler, -, -⟩, hany⟩ := patched_jumps_are_direct (Array.replicate 13 255) calls
  have hresolved : d.resolved calls = direct := by decide +kernel
  have hr : Rearranged calls calls' := ⟨by decide, by decide⟩
  have hassembler' := hany calls' (by decide +kernel) (by decide +kernel) hr
  rw [hresolved] at hassembler
  exact ⟨hassembler.symm, hassembler'.trans hassembler.symm, by decide +kernel⟩

end Bytecode.Draft
