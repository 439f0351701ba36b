/-
The order in which patches are used.

* `Call.uses?` and `Call.aim?`: the patch that a call uses, and the target that
  it has for its jump;
* `alongside_perform` (**sizes decide**): what a call that uses no patch answers
  depends on the sizes of the program and the buffer alone;
* `Sound.perform_aim`: the use of a patch that is left;
* `Draft.tail` and `Sound.ext`: what lies behind the pieces, which with them
  says it all;
* `Sound.perform_patch_comm` (**patches commute**): a patch that is left can be
  used before or after any call that does not use it;
* `Rearranged` and `Sound.performAll_rearranged`: patches used in any order.
-/
import Mathlib
import Bytecode.Proofs.Draft

namespace Bytecode

/-! ### Calls and the patches that they use -/

namespace Call

/-- The patch that a call uses. -/
def uses? : Call → Option ℕ
  | .patch k _ => some k
  | .patchHere k => some k
  | _ => none

/-- The patch that a call uses, and the target for its jump, or why there is
none. -/
def aim? (a : Assembler) : Call → Option (ℕ × Except AssemblyError UInt16)
  | .patch k target => some (k, .ok target)
  | .patchHere k => some (k, a.label)
  | _ => none

/-- The target of a jump is given, wherever the next instruction is. -/
def isPatch : Call → Bool
  | .patch .. => true
  | _ => false

/-- A call that uses a patch has an aim. -/
lemma exists_aim?_eq {c : Call} {k : ℕ} (hc : c.uses? = some k) (a : Assembler) :
    ∃ target, c.aim? a = some (k, target) := by
  cases c with
  | patch k' target =>
      cases hc
      exact ⟨_, rfl⟩
  | patchHere k' =>
      cases hc
      exact ⟨_, rfl⟩
  | _ => cases hc

/-- An aim is that of the patch that is used. -/
lemma uses?_of_aim? {c : Call} {a : Assembler} {k : ℕ} {target : Except AssemblyError UInt16}
    (hc : c.aim? a = some (k, target)) : c.uses? = some k := by
  cases c with
  | patch k' target' =>
      cases hc
      rfl
  | patchHere k' =>
      cases hc
      rfl
  | _ => cases hc

end Call

namespace Draft

/-- Calls with their answers. -/
def transcript (d : Draft) : List Call → List (Call × Reply)
  | [] => []
  | c :: rest => (c, (d.perform c).1) :: (d.perform c).2.transcript rest

/-! ### What a call answers -/

/-- What lies behind the pieces. -/
def tail (d : Draft) : List UInt8 :=
  d.assembler.buffer.toList.drop d.assembler.free

/-- Drafts of the same size in buffers of the same size, with the same behind
the pieces. -/
structure Level (d e : Draft) : Prop where
  free_eq : e.assembler.free = d.assembler.free
  size_eq : e.assembler.buffer.size = d.assembler.buffer.size
  tail_eq : e.tail = d.tail

variable {d e : Draft}

lemma Level.refl (d : Draft) : Level d d :=
  ⟨rfl, rfl, rfl⟩

/-- As much fits behind both, or behind neither. -/
lemma Level.fits_iff (h : Level d e) {content content' : Content}
    (hlength : content'.bytes.length = content.bytes.length) :
    e.Fits content' ↔ d.Fits content := by
  rw [Fits, Fits, Assembler.Fits, Assembler.Fits, h.free_eq, h.size_eq, hlength]

/-- As much stays behind both of what does not fit. -/
lemma Level.spill_eq (h : Level d e) (bytes : List UInt8) :
    e.assembler.spill bytes = d.assembler.spill bytes := by
  rw [Assembler.spill, Assembler.spill, h.free_eq, h.size_eq]

/-- What lies behind bytes that are put behind the rest is what lay there. -/
lemma tail_appended {content : Content} (hfit : d.Fits content) :
    (d.appended content).tail = d.tail.drop content.bytes.length := by
  have hfree := Nat.le_of_add_right_le hfit.1
  rw [tail, tail, List.drop_drop, appended, Assembler.appended,
    Bytes.toList_overwrite _ hfit.1]
  refine List.drop_left' ?_
  rw [List.length_append, List.length_take, Array.length_toList, min_eq_left hfree]

/-- Bytes that are not accepted lie in front of what lies behind them. -/
lemma tail_spilled {bytes : List UInt8}
    (hroom : d.assembler.free + bytes.length ≤ d.assembler.buffer.size) :
    (d.spilled bytes).tail = bytes ++ d.tail.drop bytes.length := by
  have hfree := Nat.le_of_add_right_le hroom
  rw [tail, tail, List.drop_drop, spilled, Assembler.spilled, Assembler.overwritten,
    Bytes.toList_overwrite _ hroom, List.append_assoc]
  refine List.drop_left' ?_
  rw [List.length_take, Array.length_toList, min_eq_left hfree]

/-- With as much behind both they stay level. -/
lemma Level.appended (h : Level d e) {content content' : Content}
    (hlength : content'.bytes.length = content.bytes.length) (hfit : d.Fits content) :
    Level (d.appended content) (e.appended content') where
  free_eq := by
    simp only [Draft.appended, Assembler.appended]
    rw [h.free_eq, hlength]
  size_eq := by
    simp only [Draft.appended, Assembler.appended, Bytes.size_overwrite]
    exact h.size_eq
  tail_eq := by
    rw [tail_appended hfit, tail_appended ((h.fits_iff hlength).mpr hfit), h.tail_eq, hlength]

/-- With the same bytes behind both they stay level. -/
lemma Level.spilled (h : Level d e) {bytes : List UInt8}
    (hroom : d.assembler.free + bytes.length ≤ d.assembler.buffer.size) :
    Level (d.spilled bytes) (e.spilled bytes) where
  free_eq := h.free_eq
  size_eq := by
    simp only [Draft.spilled, Assembler.spilled, Assembler.overwritten, Bytes.size_overwrite]
    exact h.size_eq
  tail_eq := by
    rw [tail_spilled hroom, tail_spilled (by rw [h.free_eq, h.size_eq]; exact hroom), h.tail_eq]

/-- What a call that uses no patch comes to in two drafts. -/
inductive Alongside (d e : Draft) (c : Call) : Prop
  /-- Nothing has been accepted in either, and the same has been written behind
  both. -/
  | spilled (reply : Reply) (hreply : ∀ p, reply ≠ .forward (.ok p)) (bytes : List UInt8)
      (hroom : d.assembler.free ≤ d.assembler.buffer.size →
        d.assembler.free + bytes.length ≤ d.assembler.buffer.size)
      (h : d.perform c = (reply, d.spilled bytes)) (h' : e.perform c = (reply, e.spilled bytes))
  /-- The same has been put behind both. -/
  | put (reply : Reply) (hreply : ∀ p, reply ≠ .forward (.ok p)) (content : Content)
      (hpatchless : ∀ op target p, content ≠ .jump op target (some p)) (hfit : d.Fits content)
      (h : d.perform c = (reply, d.appended content))
      (h' : e.perform c = (reply, e.appended content))
  /-- The same forward jump has been put behind both. -/
  | jump (op : Opcode) (hop : op.IsJump) (hcall : c = .jumpForward op)
      (hfit : d.Fits (d.pending op))
      (h : d.perform c = (.forward (.ok ⟨op, d.assembler.free⟩), d.appended (d.pending op)))
      (h' : e.perform c = (.forward (.ok ⟨op, d.assembler.free⟩), e.appended (d.pending op)))

/-- What is put at once is put behind both, or fits neither. -/
lemma alongside_put (hl : Level d e) {c : Call} {content : Content}
    (h : PutsAtOnce c content) : Alongside d e c := by
  have hd := h.perform_eq d
  have he := h.perform_eq e
  by_cases hfit : d.Fits content
  · rw [put_of_fits hfit] at hd
    rw [put_of_fits ((hl.fits_iff rfl).mpr hfit), hl.free_eq] at he
    exact .put _ (by rintro p ⟨⟩) content h.patchless hfit hd he
  · rw [put_of_not_fits hfit] at hd
    rw [put_of_not_fits (mt (hl.fits_iff rfl).mp hfit), hl.spill_eq] at he
    exact .spilled _ (by rintro p ⟨⟩) _
      (fun hle => Assembler.free_add_length_spill_le hle _) hd he

/-- A forward jump is put behind both, or fits neither. -/
lemma alongside_jumpForward (hl : Level d e) (op : Opcode) :
    Alongside d e (.jumpForward op) := by
  by_cases hop : op.IsJump
  · have hpending : e.pending op = d.pending op := by rw [pending, pending, hl.free_eq]
    have hfits : e.Fits (e.pending op) ↔ d.Fits (d.pending op) := hl.fits_iff (by rw [hpending])
    by_cases hfit : d.Fits (d.pending op)
    · have he := jumpForward_of_fits hop (hfits.mpr hfit)
      rw [hpending, hl.free_eq] at he
      exact .jump op hop rfl hfit (jumpForward_of_fits hop hfit) he
    · have he := jumpForward_of_not_fits hop (mt hfits.mp hfit)
      rw [hpending, hl.spill_eq] at he
      exact .spilled _ (by rintro p ⟨⟩) _
        (fun hle => Assembler.free_add_length_spill_le hle _) (jumpForward_of_not_fits hop hfit) he
  · exact .spilled _ (by rintro p ⟨⟩) [] id (jumpForward_of_not_isJump hop d)
      (jumpForward_of_not_isJump hop e)

/-- **What is answered does not depend on what is in the buffer**, nor on what
has been put there before, but on the sizes alone. -/
theorem alongside_perform (hl : Level d e) {c : Call} (hc : c.uses? = none) :
    Alongside d e c := by
  cases c with
  | emit i => exact alongside_put hl (.emit i)
  | typed i => exact alongside_put hl (.typed i)
  | raw byte => exact alongside_put hl (.raw byte)
  | label =>
      refine .spilled _ (by rintro p ⟨⟩) [] id rfl ?_
      rw [perform, Assembler.label, Assembler.label, hl.free_eq]
      rfl
  | jumpForward op => exact alongside_jumpForward hl op
  | patch k target => cases hc
  | patchHere k => cases hc

/-- There is no such patch, or it has been used. -/
lemma perform_of_patch?_eq_none {k : ℕ} {c : Call} (hc : c.uses? = some k)
    (hk : d.patch? k = none) : d.perform c = (.unavailable, d) := by
  have hnone : ∀ target f, d.usePatch k target f = (.unavailable, d) := by
    intro target f
    rw [usePatch]
    split
    next offset op old p hpiece =>
      rw [patch?, hpiece] at hk
      cases hk
    next => rfl
  cases c with
  | patch k' target =>
      cases hc
      exact hnone _ _
  | patchHere k' =>
      cases hc
      exact hnone _ _
  | _ => cases hc

/-- The pieces with what lies behind them make up the buffer. -/
lemma Sound.toList_eq (h : d.Sound) : d.assembler.buffer.toList = d.bytes ++ d.tail := by
  have hfront : d.assembler.buffer.toList.take d.assembler.free = d.bytes := h.take_eq
  rw [← hfront, tail, List.take_append_drop]

/-- A jump that is written over leaves what lies behind the pieces. -/
lemma Sound.tail_overwritten (h : d.Sound) {k offset : ℕ} {op : Opcode} {old : UInt16} {p : Patch}
    (hk : d.pieces[k]? = some ⟨offset, .jump op old (some p)⟩) (target : UInt16) :
    tail ⟨d.assembler.overwritten p.offset (p.bytes target),
      d.pieces.set k ⟨offset, .jump op target none⟩⟩ = d.tail := by
  obtain ⟨before, after, hpieces, rfl⟩ := eq_append_of_getElem? hk
  have hpatch : d.patch? before.length = some p := by rw [patch?, hk]
  have haims : Aims d.assembler p old target
      (d.assembler.overwritten p.offset (p.bytes target)) :=
    .inr ⟨(h.patch_fits hpatch target).2, rfl⟩
  have hlist := h.toList_used hpieces haims h.toList_eq.symm
  rw [tail, ← hlist]
  exact List.drop_left' (h.used hpieces haims).free_eq.symm

/-- The use of a patch that is left: its jump gets the target, if there is
one. -/
lemma Sound.perform_aim (h : d.Sound) {c : Call} {k offset : ℕ} {op : Opcode} {old : UInt16}
    {p : Patch} {target : Except AssemblyError UInt16} (hc : c.aim? d.assembler = some (k, target))
    (hk : d.pieces[k]? = some ⟨offset, .jump op old (some p)⟩) :
    (d.perform c).1 = .patched (target.map fun _ => ()) ∧
      (d.perform c).2.pieces = d.pieces.set k ⟨offset, .jump op (target.toOption.getD old) none⟩ ∧
      Level d (d.perform c).2 := by
  have hpatch : d.patch? k = some p := by rw [patch?, hk]
  have hone : ∀ t, (d.perform (.patch k t)).1 = .patched (.ok ()) ∧
      (d.perform (.patch k t)).2.pieces = d.pieces.set k ⟨offset, .jump op t none⟩ ∧
      Level d (d.perform (.patch k t)).2 := by
    intro t
    rw [Draft.perform, usePatch, hk]
    dsimp only
    obtain ⟨hop, hfit⟩ := h.patch_fits hpatch t
    rw [Assembler.patch_of_isJump hop, if_pos hfit]
    exact ⟨rfl, rfl, rfl, Bytes.size_overwrite _ _ _, h.tail_overwritten hk t⟩
  cases c with
  | patch k' t =>
      cases hc
      exact hone t
  | patchHere k' =>
      cases hc
      have hwith : d.perform (.patchHere k) =
          d.usePatch k (UInt16.ofNat d.assembler.here) d.assembler.patchHere := rfl
      cases hlabel : d.assembler.label with
      | ok t =>
          have ht : UInt16.ofNat d.assembler.here = t := by
            rw [Assembler.label] at hlabel
            split_ifs at hlabel
            exact Except.ok.inj hlabel
          have hsame : d.assembler.patchHere = (d.assembler.patch · t) := by
            funext p
            rw [Assembler.patchHere, hlabel]
          rw [hwith, ht, hsame]
          exact hone t
      | error e =>
          have hfail : d.perform (.patchHere k) = (.patched (.error e),
              ⟨d.assembler, d.pieces.set k ⟨offset, .jump op old none⟩⟩) := by
            rw [hwith, usePatch, hk]
            dsimp only
            rw [Assembler.patchHere, hlabel]
          rw [hfail]
          exact ⟨rfl, rfl, rfl, rfl, rfl⟩
  | _ => cases hc

/-- A call that is answered has used a patch that was left, and it is left no
more. -/
lemma Sound.exists_spent (h : d.Sound) {c : Call} {k : ℕ} (hc : c.uses? = some k)
    (hreply : (d.perform c).1 ≠ .unavailable) :
    ∃ offset op target,
      (d.perform c).2.pieces[k]? = some ⟨offset, .jump op target none⟩ := by
  cases hp : d.patch? k with
  | none => exact absurd (by rw [perform_of_patch?_eq_none hc hp]) hreply
  | some p =>
      obtain ⟨target, haim⟩ := Call.exists_aim?_eq hc d.assembler
      obtain ⟨offset, op, old, hk⟩ := getElem?_of_patch? hp
      obtain ⟨-, hpieces, -⟩ := h.perform_aim haim hk
      have hlt : k < d.pieces.length := (List.getElem?_eq_some_iff.mp hk).1
      exact ⟨offset, op, target.toOption.getD old, by rw [hpieces, List.getElem?_set_self hlt]⟩

/-- A call leaves the pieces alone that are there, but for the jump whose patch
it uses. -/
lemma Sound.getElem?_perform (h : d.Sound) {c : Call} {k : ℕ} (hk : k < d.pieces.length)
    (hc : c.uses? ≠ some k) : (d.perform c).2.pieces[k]? = d.pieces[k]? := by
  cases hu : c.uses? with
  | none =>
      cases alongside_perform (.refl d) hu with
      | spilled reply _ bytes _ hd _ => rw [hd, Draft.spilled]
      | put reply _ content _ _ hd _ => rw [hd, appended, List.getElem?_append_left hk]
      | jump op _ _ _ hd _ => rw [hd, appended, List.getElem?_append_left hk]
  | some k' =>
      have hne : k' ≠ k := fun heq => hc (by rw [hu, heq])
      obtain ⟨target, haim⟩ := Call.exists_aim?_eq hu d.assembler
      cases hp : d.patch? k' with
      | none => rw [perform_of_patch?_eq_none hu hp]
      | some p =>
          obtain ⟨offset, op, old, hpiece⟩ := getElem?_of_patch? hp
          rw [(h.perform_aim haim hpiece).2.1, List.getElem?_set_ne hne]

/-- A patch is left that is left in the same piece. -/
lemma patch?_congr {k : ℕ} (h : e.pieces[k]? = d.pieces[k]?) : e.patch? k = d.patch? k := by
  rw [patch?, patch?, h]

/-! ### Patches commute -/

/-- **The pieces say it all**, with what lies behind them. -/
lemma Sound.ext (h : d.Sound) (h' : e.Sound) (hpieces : e.pieces = d.pieces)
    (htail : e.tail = d.tail) : e = d := by
  have hbytes : e.bytes = d.bytes := by rw [bytes, bytes, hpieces]
  have hfree : e.assembler.free = d.assembler.free := by rw [h.free_eq, h'.free_eq, hbytes]
  have hbuffer : e.assembler.buffer = d.assembler.buffer := by
    apply Array.toList_inj.mp
    rw [h.toList_eq, h'.toList_eq, hbytes, htail]
  obtain ⟨⟨buffer, free⟩, pieces⟩ := d
  obtain ⟨⟨buffer', free'⟩, pieces'⟩ := e
  dsimp only at hpieces hfree hbuffer
  subst hpieces hfree hbuffer
  rfl

/-- Level drafts give a call the same aim. -/
lemma Level.aim?_eq (h : Level d e) (c : Call) : c.aim? e.assembler = c.aim? d.assembler := by
  cases c with
  | patchHere k =>
      rw [Call.aim?, Call.aim?, Assembler.label, Assembler.label, h.free_eq]
  | _ => rfl

/-- **Patches commute**: a patch that is left can be used before or after any
call that does not use it, which is answered the same. -/
theorem Sound.perform_patch_comm (h : d.Sound) {k : ℕ} {p : Patch}
    (hp : d.patch? k = some p) (target : UInt16) {c : Call} (hc : c.uses? ≠ some k) :
    (d.perform (.patch k target)).2.perform c
      = ((d.perform c).1, ((d.perform c).2.perform (.patch k target)).2) := by
  obtain ⟨offset, op, old, hk⟩ := getElem?_of_patch? hp
  have hlt : k < d.pieces.length := (List.getElem?_eq_some_iff.mp hk).1
  have hpatch : ∀ {e : Draft}, e.Sound → e.pieces[k]? = some ⟨offset, .jump op old (some p)⟩ →
      (e.perform (.patch k target)).2.pieces = e.pieces.set k ⟨offset, .jump op target none⟩ ∧
        Level e (e.perform (.patch k target)).2 := by
    intro e hsound hpiece
    have haim := hsound.perform_aim (c := .patch k target) rfl hpiece
    exact haim.2
  obtain ⟨hearly, hlevel⟩ := hpatch h hk
  obtain ⟨hlate, hlevel'⟩ := hpatch (h.perform c) ((h.getElem?_perform hlt hc).trans hk)
  -- both drafts are sound, so that their pieces are to be compared, and what lies behind
  suffices hsame : ((d.perform (.patch k target)).2.perform c).1 = (d.perform c).1 ∧
      ((d.perform (.patch k target)).2.perform c).2.pieces
        = (d.perform c).2.pieces.set k ⟨offset, .jump op target none⟩ ∧
      ((d.perform (.patch k target)).2.perform c).2.tail = (d.perform c).2.tail from
    Prod.ext hsame.1 (((h.perform c).perform _).ext ((h.perform _).perform c)
      (hsame.2.1.trans hlate.symm) (hsame.2.2.trans hlevel'.tail_eq.symm))
  cases hu : c.uses? with
  | none =>
      cases alongside_perform hlevel hu with
      | spilled reply _ bytes hroom hd he =>
          rw [hd, he]
          exact ⟨rfl, hearly, (hlevel.spilled (hroom h.free_le)).tail_eq⟩
      | put reply _ content _ hfit hd he =>
          rw [hd, he]
          refine ⟨rfl, ?_, (hlevel.appended rfl hfit).tail_eq⟩
          rw [appended, appended, List.set_append_left _ _ hlt, hearly, hlevel.free_eq]
      | jump op _ _ hfit hd he =>
          rw [hd, he]
          refine ⟨rfl, ?_, (hlevel.appended rfl hfit).tail_eq⟩
          rw [appended, appended, List.set_append_left _ _ hlt, hearly, hlevel.free_eq]
  | some k' =>
      have hne : k ≠ k' := fun heq => hc (by rw [hu, heq])
      obtain ⟨target', haim'⟩ := Call.exists_aim?_eq hu d.assembler
      have hkept : (d.perform (.patch k target)).2.pieces[k']? = d.pieces[k']? := by
        rw [hearly, List.getElem?_set_ne hne]
      cases hp' : d.patch? k' with
      | none =>
          rw [perform_of_patch?_eq_none hu hp',
            perform_of_patch?_eq_none hu ((patch?_congr hkept).trans hp')]
          exact ⟨rfl, hearly, hlevel.tail_eq⟩
      | some p' =>
          obtain ⟨offset', op', old', hk'⟩ := getElem?_of_patch? hp'
          obtain ⟨hreply, hpieces, hused⟩ := h.perform_aim haim' hk'
          obtain ⟨hreply', hpieces', hused'⟩ := (h.perform (.patch k target)).perform_aim
            ((hlevel.aim?_eq c).trans haim') (hkept.trans hk')
          refine ⟨hreply'.trans hreply.symm, ?_, ?_⟩
          · rw [hpieces', hpieces, hearly, List.set_comm _ _ hne]
          · rw [hused'.tail_eq, hlevel.tail_eq, hused.tail_eq]

/-- Every patch that is used exists, and has not been used before. -/
def Orderly (d : Draft) (calls : List Call) : Prop :=
  ∀ x ∈ d.transcript calls, x.2 ≠ .unavailable

instance (d : Draft) (calls : List Call) : Decidable (d.Orderly calls) :=
  inferInstanceAs (Decidable (∀ x ∈ d.transcript calls, x.2 ≠ .unavailable))

lemma orderly_cons_iff {c : Call} {rest : List Call} :
    d.Orderly (c :: rest) ↔ (d.perform c).1 ≠ .unavailable ∧ (d.perform c).2.Orderly rest :=
  List.forall_mem_cons

/-- What holds of calls in a row holds of those behind others. -/
lemma Orderly.of_append {calls later : List Call} (h : d.Orderly (calls ++ later)) :
    (d.performAll calls).Orderly later := by
  induction calls generalizing d with
  | nil => exact h
  | cons c rest ih => exact ih (orderly_cons_iff.mp h).2

/-- A patch that is used has not been used by the calls before. -/
lemma Sound.uses?_ne_of_orderly (h : d.Sound) {before after : List Call} {k : ℕ} {target : UInt16}
    (ho : d.Orderly (before ++ .patch k target :: after)) : ∀ c ∈ before, c.uses? ≠ some k := by
  intro c hmem hc
  obtain ⟨first, second, rfl⟩ := List.append_of_mem hmem
  rw [List.append_assoc] at ho
  obtain ⟨hreply, hrest⟩ := orderly_cons_iff.mp ho.of_append
  have hsound : (d.performAll first).Sound :=
    performAll_induction (fun call _ _ h => h.perform call) h
  obtain ⟨offset, op, old, hspent⟩ := hsound.exists_spent hc hreply
  have hstill := getElem?_performAll_of_used hspent second
  have hnone : (((d.performAll first).perform c).2.performAll second).patch? k = none := by
    rw [patch?, hstill]
  have hanswer := (orderly_cons_iff.mp hrest.of_append).1
  rw [perform_of_patch?_eq_none (k := k) rfl hnone] at hanswer
  exact hanswer rfl

/-- A patch that is left can be used first, and used in order. -/
lemma Sound.bubble (h : d.Sound) {k : ℕ} {p : Patch} (hp : d.patch? k = some p)
    (target : UInt16) {before : List Call} (hbefore : ∀ c ∈ before, c.uses? ≠ some k)
    (after : List Call) :
    d.performAll (before ++ .patch k target :: after)
        = (d.perform (.patch k target)).2.performAll (before ++ after) ∧
      (d.Orderly (before ++ .patch k target :: after) →
        (d.perform (.patch k target)).2.Orderly (before ++ after)) := by
  induction before generalizing d with
  | nil => exact ⟨rfl, fun ho => (orderly_cons_iff.mp ho).2⟩
  | cons c before ih =>
      have hc : c.uses? ≠ some k := hbefore c List.mem_cons_self
      have hcomm := h.perform_patch_comm hp target hc
      obtain ⟨offset, op, old, hk⟩ := getElem?_of_patch? hp
      have hkept := h.getElem?_perform (List.getElem?_eq_some_iff.mp hk).1 hc
      obtain ⟨hdraft, horderly⟩ := ih (h.perform c) ((patch?_congr hkept).trans hp)
        fun c' hmem => hbefore c' (List.mem_cons_of_mem _ hmem)
      constructor
      · change (d.perform c).2.performAll (before ++ .patch k target :: after)
          = ((d.perform (.patch k target)).2.perform c).2.performAll (before ++ after)
        rw [hdraft, hcomm]
      · intro ho
        rw [List.cons_append, orderly_cons_iff] at ho ⊢
        rw [hcomm]
        exact ⟨ho.1, horderly ho.2⟩

end Draft

/-! ### Rearrangements -/

/-- The same calls, in the same order but for those that give targets. -/
structure Rearranged (calls calls' : List Call) : Prop where
  rest_eq : calls'.filter (fun c => !c.isPatch) = calls.filter (fun c => !c.isPatch)
  patches_perm : (calls'.filter (·.isPatch)).Perm (calls.filter (·.isPatch))

namespace Rearranged

variable {calls calls' : List Call}

lemma symm (h : Rearranged calls calls') : Rearranged calls' calls :=
  ⟨h.rest_eq.symm, h.patches_perm.symm⟩

lemma length_eq (h : Rearranged calls calls') : calls'.length = calls.length := by
  rw [List.length_eq_length_filter_add (·.isPatch), h.rest_eq, h.patches_perm.length_eq,
    ← List.length_eq_length_filter_add]

/-- A target that is given first is given somewhere. -/
lemma exists_of_patch {k : ℕ} {target : UInt16} {rest : List Call}
    (h : Rearranged (.patch k target :: rest) calls') :
    ∃ before after, calls' = before ++ .patch k target :: after ∧
      Rearranged rest (before ++ after) := by
  have hmem : Call.patch k target ∈ calls'.filter (·.isPatch) :=
    h.patches_perm.mem_iff.mpr (List.mem_filter.mpr ⟨List.mem_cons_self, rfl⟩)
  obtain ⟨before, after, rfl⟩ := List.append_of_mem (List.mem_filter.mp hmem).1
  refine ⟨before, after, rfl, ?_, ?_⟩
  · have hrest := h.rest_eq
    simpa [Call.isPatch] using hrest
  · have hperm := h.patches_perm
    simp only [List.filter_append, List.filter_cons, Call.isPatch, if_true] at hperm ⊢
    exact (List.perm_middle.symm.trans hperm).cons_inv

/-- Any other call that comes first in both is the same. -/
lemma of_cons {c c' : Call} (h : Rearranged (c :: calls) (c' :: calls')) (hc : c.isPatch = false)
    (hc' : c'.isPatch = false) : c' = c ∧ Rearranged calls calls' := by
  have hrest := h.rest_eq
  have hperm := h.patches_perm
  simp only [List.filter_cons, hc, hc', Bool.not_false, if_true, List.cons.injEq] at hrest
  simp only [List.filter_cons, hc, hc'] at hperm
  exact ⟨hrest.1, hrest.2, hperm⟩

end Rearranged

namespace Draft

variable {d : Draft}

/-- **Patches may be used in any order**, and wherever one likes behind their
jumps. -/
theorem Sound.performAll_rearranged (h : d.Sound) {calls calls' : List Call}
    (ho : d.Orderly calls) (ho' : d.Orderly calls') (hr : Rearranged calls calls') :
    d.performAll calls' = d.performAll calls := by
  induction hn : calls.length generalizing d calls calls' with
  | zero =>
      rw [List.length_eq_zero_iff.mp hn, List.length_eq_zero_iff.mp (hr.length_eq.trans hn)]
  | succ n ih =>
      -- a target that is given first by either is moved to the front of the other
      have hfront : ∀ {k target rest calls'}, d.Orderly (.patch k target :: rest) →
          d.Orderly calls' → Rearranged (.patch k target :: rest) calls' → rest.length = n →
          d.performAll calls' = d.performAll (.patch k target :: rest) := by
        intro k target rest calls' ho ho' hr hn
        obtain ⟨before, after, rfl, hr'⟩ := hr.exists_of_patch
        obtain ⟨hreply, hrest⟩ := orderly_cons_iff.mp ho
        cases hp : d.patch? k with
        | none => exact absurd (by rw [perform_of_patch?_eq_none (k := k) rfl hp]) hreply
        | some p =>
            obtain ⟨hdraft, horderly⟩ :=
              h.bubble hp target (h.uses?_ne_of_orderly ho') after
            rw [hdraft]
            exact ih (h.perform _) hrest (horderly ho') hr' hn
      obtain ⟨c, rest, rfl⟩ := List.exists_cons_of_length_eq_add_one hn
      obtain ⟨c', rest', rfl⟩ := List.exists_cons_of_length_eq_add_one (hr.length_eq.trans hn)
      have hlength : rest.length = n := by simpa using hn
      have hlength' : rest'.length = n := by simpa using hr.length_eq.trans hn
      cases hc : c.isPatch with
      | true =>
          cases c with
          | patch k target => exact hfront ho ho' hr hlength
          | _ => cases hc
      | false =>
          cases hc' : c'.isPatch with
          | true =>
              cases c' with
              | patch k target => exact (hfront ho' ho hr.symm hlength').symm
              | _ => cases hc'
          | false =>
              obtain ⟨rfl, hr'⟩ := hr.of_cons hc hc'
              exact ih (h.perform _) (orderly_cons_iff.mp ho).2 (orderly_cons_iff.mp ho').2 hr'
                hlength

end Draft

end Bytecode
