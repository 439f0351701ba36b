/-
What a program leaves on a tape, and what tapes of other lengths do to it.

* `Machine.prints`, `Machine.offers`: the words that steps print, and how many are
  offered to the sink;
* `Tape.Takes`: what a tape has become once it has taken some words;
* `takes_step`, `takes_steps`, `takes_calls` (**a tape records what is printed**): by
  one step, by several, and by calls one after the other;
* `steps_with_capacity`: as long as the shorter of two tapes has refused nothing, the
  steps with the longer one come to the same;
* `steps_refused_iff`: the shorter one refuses the first word for which it has no room;
* `sink_only_stops`: a tape that is too short stops a program, and a longer one goes
  the same way first.
-/
import Mathlib
import Bytecode.Proofs.Calls
import Bytecode.Proofs.Offering

namespace Bytecode

/-! ### Tapes -/

namespace Tape

/-- The tape with more words behind the others, whether or not there is room. -/
def extend (t : Tape) (words : List Word) : Tape :=
  { t with words := t.words ++ words.toArray }

/-- What a tape has become once it has taken words: they are behind the others, and
if there was room for those, then there is room for all. -/
structure Takes (t : Tape) (words : List Word) (t' : Tape) : Prop where
  eq_extend : t' = t.extend words
  size_le : t.words.size ≤ t.capacity → t'.words.size ≤ t'.capacity

variable {t t' t'' : Tape} {words words' : List Word}

/-- A tape that has taken nothing is the same. -/
lemma Takes.refl (t : Tape) : t.Takes [] t :=
  ⟨by simp [extend], id⟩

/-- A tape takes a word for which there is room. -/
lemma Takes.of_lt (v : Word) (h : t.words.size < t.capacity) :
    t.Takes [v] { t with words := t.words.push v } := by
  refine ⟨by simp [extend], fun _ => ?_⟩
  rw [Array.size_push]
  exact h

/-- Some words, and then some more. -/
lemma Takes.trans (h : t.Takes words t') (h' : t'.Takes words' t'') :
    t.Takes (words ++ words') t'' := by
  refine ⟨?_, h'.size_le ∘ h.size_le⟩
  rw [h'.eq_extend, h.eq_extend]
  simp [extend, Array.append_assoc]

/-- The words on a tape that was blank. -/
lemma Takes.toList_words {N : ℕ} (h : (blank N).Takes words t) :
    t.words.toList = words ∧ t.words.size ≤ N := by
  have hsize := h.size_le (Nat.zero_le _)
  rw [h.eq_extend] at hsize ⊢
  exact ⟨by simp [extend, blank], hsize⟩

end Tape

namespace Machine

variable {m : Machine}

/-! ### What is printed -/

section Printed

variable {σ : Type} [Sink σ]

/-- The word that the next step prints: the one that it offers, if the sink does not
stop it. -/
def printed? (m : Machine) (s : σ) : Option Word :=
  if (m.step s).answer = .ok .ready then m.offered? else none

/-- The words that the first steps print, in order. -/
def prints (m : Machine) (s : σ) : ℕ → List Word
  | 0 => []
  | n + 1 => m.prints s n ++ ((m.steps s n).machine.printed? (m.steps s n).sink).toList

/-- How many of the first steps offer a word to the sink. -/
def offers (m : Machine) (s : σ) (n : ℕ) : ℕ :=
  Nat.count (fun j => (m.steps s j).machine.offered?.isSome) n

/-- The words that a call prints. -/
def callPrints (m : Machine) (s : σ) : Call → List Word
  | .step => (m.printed? s).toList
  | .run fuel => m.restart.prints s fuel

/-- The words that calls print, one after the other. -/
def callsPrint (m : Machine) (s : σ) : List Call → List Word
  | [] => []
  | call :: rest =>
    m.callPrints s call ++ ((m.call s call).elim [] fun out => out.machine.callsPrint out.sink rest)

/-- The words of the first steps are the first words. -/
lemma prints_isPrefix (m : Machine) (s : σ) {n k : ℕ} (h : n ≤ k) :
    m.prints s n <+: m.prints s k := by
  induction k, h using Nat.le_induction with
  | base => exact List.prefix_rfl
  | succ k _ ih =>
      rw [prints]
      exact ih.trans (List.prefix_append _ _)

/-- As long as the machine is ready, all that has been offered has been printed. -/
lemma offers_eq (m : Machine) (s : σ) {n : ℕ} (hready : (m.steps s n).machine.status = .ready) :
    m.offers s n = (m.prints s n).length := by
  induction n with
  | zero => rfl
  | succ n ih =>
      have hanswer : ((m.steps s n).machine.step (m.steps s n).sink).answer = .ok .ready := by
        rw [← answer_step]
        exact congrArg Status.answer hready
      rw [offers, Nat.count_succ, ← offers, ih (ready_of_answer hanswer), prints,
        List.length_append, printed?, if_pos hanswer]
      cases (m.steps s n).machine.offered? with
      | none => rfl
      | some v => rfl

end Printed

/-! ### One step with a tape -/

/-- A step that offers nothing comes to the same with any tape, and leaves it. -/
lemma step_of_offered?_eq_none (h : m.WellFormed) (hnone : m.offered? = none) :
    ∃ answer after, (∀ offset, m.status = .ready → answer ≠ .error (.outputRefused offset)) ∧
      ∀ t : Tape, m.step t = ⟨answer, after, t⟩ := by
  have hsilent := silent_of_offered?_eq_none hnone
  have hstep (t : Tape) := (step_of_silent h hsilent (Tape.blank 0) t).2
  refine ⟨_, _, fun offset hready hanswer => ?_, hstep⟩
  cases transition_step h hready (Tape.blank 0) with
  | fault he hout =>
      rw [hout] at hanswer
      cases hanswer
      exact nextEffect_ne_outputRefused h offset he
  | stop _ hout =>
      rw [hout] at hanswer
      cases hanswer
  | proceed _ _ hout =>
      rw [hout] at hanswer
      cases hanswer
  | print _ _ _ hout =>
      rw [hout] at hanswer
      cases hanswer
  | refuse he hv _ _ =>
      rw [hsilent hready _ he] at hv
      cases hv

/-- A step that offers a word goes on if there is room for it, without the word on its
stack, and else nothing but the status changes. -/
lemma step_of_offered?_eq_some (h : m.WellFormed) {v : Word} (hv : m.offered? = some v) :
    ∃ after, m.stack = v :: after.stack ∧ ∀ t : Tape, m.step t =
      if t.words.size < t.capacity then ⟨.ok .ready, after, { t with words := t.words.push v }⟩
      else ⟨.error (.outputRefused m.ip), m.withStatus (.faulted (.outputRefused m.ip)), t⟩ := by
  obtain ⟨hready, e, he, hprinted, hstack⟩ := exists_effect_of_offered? hv
  refine ⟨m.after e, hstack, fun t => ?_⟩
  by_cases hroom : t.words.size < t.capacity
  · rw [if_pos hroom]
    exact step_of_taken h hready he hprinted (if_pos hroom)
  · rw [if_neg hroom]
    exact step_of_refused h hready he hprinted (if_neg hroom)

/-- **A step records what it prints**, and nothing else. -/
theorem takes_step (h : m.WellFormed) (t : Tape) :
    t.Takes (m.printed? t).toList (m.step t).sink := by
  rw [printed?]
  cases hv : m.offered? with
  | none =>
      obtain ⟨answer, after, -, hstep⟩ := step_of_offered?_eq_none h hv
      rw [hstep, ite_self]
      exact .refl t
  | some v =>
      obtain ⟨after, -, hstep⟩ := step_of_offered?_eq_some h hv
      rw [hstep]
      by_cases hroom : t.words.size < t.capacity
      · rw [if_pos hroom, if_pos rfl]
        exact .of_lt v hroom
      · rw [if_neg hroom, if_neg (by simp)]
        exact .refl t

/-- A step that does not go on leaves its tape as it is. -/
lemma sink_step_of_ne (h : m.WellFormed) {t : Tape} (hne : (m.step t).answer ≠ .ok .ready) :
    (m.step t).sink = t := by
  have htakes := takes_step h t
  rw [printed?, if_neg hne] at htakes
  exact htakes.eq_extend.trans (Tape.Takes.refl t).eq_extend.symm

/-- What a step prints is what a `PRINT` has taken off the stack. -/
lemma stack_of_printed? (h : m.WellFormed) {t : Tape} {v : Word} (hv : m.printed? t = some v) :
    m.attempted? = some .print ∧ m.stack = v :: (m.step t).machine.stack := by
  rw [printed?] at hv
  split_ifs at hv with hanswer
  obtain ⟨after, hstack, hstep⟩ := step_of_offered?_eq_some h hv
  constructor
  · rw [offered?] at hv
    split_ifs at hv with hprint
    exact hprint
  · rw [hstep] at hanswer ⊢
    split_ifs at hanswer with hroom
    rwa [if_pos hroom]

/-! ### Several steps, and calls -/

/-- Several steps record what they print. -/
theorem takes_steps (h : m.WellFormed) (t : Tape) (n : ℕ) :
    t.Takes (m.prints t n) (m.steps t n).sink := by
  induction n with
  | zero => exact .refl t
  | succ n ih => exact ih.trans (takes_step (h.steps t n) _)

/-- A call records what it prints. -/
lemma takes_call (h : m.WellFormed) (t : Tape) {call : Call} {out : Outcome Reply Tape}
    (hcall : m.call t call = some out) :
    out.machine.WellFormed ∧ t.Takes (m.callPrints t call) out.sink := by
  cases call with
  | step =>
      cases hcall
      exact ⟨h.step t, takes_step h t⟩
  | run fuel =>
      obtain ⟨out', hrun, rfl⟩ := Option.map_eq_some_iff.mp hcall
      obtain ⟨hmachine, hsink⟩ := steps_of_drive hrun
      constructor
      · change out'.machine.WellFormed
        rw [← hmachine]
        exact h.restart.steps t fuel
      · change t.Takes _ out'.sink
        rw [← hsink]
        exact takes_steps h.restart t fuel

/-- **A tape is kept across calls**, and records what they print. -/
theorem takes_calls (h : m.WellFormed) (t : Tape) {calls : List Call} {after : Calls Tape}
    (hcalls : m.calls t (calls.map (·, id)) = some after) :
    t.Takes (m.callsPrint t calls) after.sink := by
  induction calls generalizing m t after with
  | nil =>
      cases hcalls
      exact .refl t
  | cons call rest ih =>
      obtain ⟨out, after', hcall, hrest, rfl⟩ := calls_cons_eq_some_iff.mp hcalls
      rw [id] at hcall
      rw [callsPrint, hcall]
      obtain ⟨hwell, htakes⟩ := takes_call h t hcall
      have hlater := ih hwell out.sink hrest
      exact htakes.trans hlater

/-- What is on a tape that was blank before several steps. -/
lemma words_steps_blank (h : m.WellFormed) (N n : ℕ) :
    (m.steps (Tape.blank N) n).sink.capacity = N ∧
      (m.steps (Tape.blank N) n).sink.words.toList = m.prints (Tape.blank N) n ∧
      (m.steps (Tape.blank N) n).sink.words.size ≤ N := by
  have htakes := takes_steps h (Tape.blank N) n
  refine ⟨?_, htakes.toList_words⟩
  rw [htakes.eq_extend]
  rfl

/-! ### Two tapes -/

variable {N N' : ℕ} {t : Tape}

/-- A machine has been stopped by its sink. -/
def Refused (m : Machine) : Prop :=
  ∃ offset, m.status = .faulted (.outputRefused offset)

/-- A machine that its sink has stopped takes no more steps. -/
lemma Refused.ne_ready (h : m.Refused) : m.status ≠ .ready := by
  obtain ⟨offset, hstatus⟩ := h
  simp [hstatus]

/-- If a step leaves room on a tape, then on a longer one it comes to the same. -/
lemma step_with_capacity (h : m.WellFormed) (hle : t.capacity ≤ N')
    (hrefused : ¬ (m.step t).machine.Refused) :
    m.step { t with capacity := N' } =
      { m.step t with sink := { (m.step t).sink with capacity := N' } } := by
  cases hv : m.offered? with
  | none =>
      obtain ⟨answer, after, -, hstep⟩ := step_of_offered?_eq_none h hv
      rw [hstep, hstep]
  | some v =>
      obtain ⟨after, -, hstep⟩ := step_of_offered?_eq_some h hv
      have hroom : t.words.size < t.capacity := by
        by_contra hfull
        rw [hstep, if_neg hfull] at hrefused
        exact hrefused ⟨_, rfl⟩
      rw [hstep, hstep, if_pos hroom]
      exact if_pos (hroom.trans_le hle)

/-- A step is refused exactly if it offers a word for which there is no room. -/
lemma step_refused_iff (h : m.WellFormed) {offset : ℕ} :
    m.status = .ready ∧ (m.step t).answer = .error (.outputRefused offset) ↔
      (∃ v, m.offered? = some v) ∧ m.ip = offset ∧ t.capacity ≤ t.words.size := by
  constructor
  · rintro ⟨hready, hanswer⟩
    cases hv : m.offered? with
    | none =>
        obtain ⟨answer, after, hne, hstep⟩ := step_of_offered?_eq_none h hv
        rw [hstep] at hanswer
        exact absurd hanswer (hne offset hready)
    | some v =>
        obtain ⟨after, -, hstep⟩ := step_of_offered?_eq_some h hv
        rw [hstep] at hanswer
        split_ifs at hanswer with hroom
        cases hanswer
        exact ⟨⟨v, rfl⟩, rfl, Nat.le_of_not_lt hroom⟩
  · rintro ⟨⟨v, hv⟩, rfl, hfull⟩
    obtain ⟨hready, -⟩ := exists_effect_of_offered? hv
    obtain ⟨after, -, hstep⟩ := step_of_offered?_eq_some h hv
    refine ⟨hready, ?_⟩
    rw [hstep, if_neg (Nat.not_lt_of_le hfull)]

/-- The step that a tape stops leaves the tape as it is, and that was full. -/
lemma Refused.of_step (h : m.WellFormed) (hready : m.status = .ready)
    (hrefused : (m.step t).machine.Refused) : (m.step t).sink = t ∧ t.capacity ≤ t.words.size := by
  obtain ⟨offset, hstatus⟩ := hrefused
  have hanswer : (m.step t).answer = .error (.outputRefused offset) := by
    rw [← answer_step, hstatus]
    rfl
  obtain ⟨-, -, hfull⟩ := (step_refused_iff h).mp ⟨hready, hanswer⟩
  exact ⟨sink_step_of_ne h (by simp [hanswer]), hfull⟩

/-- **As long as the shorter tape has refused nothing**, the steps with a longer one
come to the same. -/
theorem steps_with_capacity (h : m.WellFormed) (hle : N ≤ N') {n : ℕ}
    (hrefused : ¬ (m.steps (Tape.blank N) n).machine.Refused) :
    m.steps (Tape.blank N') n =
      { m.steps (Tape.blank N) n with
        sink := { (m.steps (Tape.blank N) n).sink with capacity := N' } } := by
  induction n with
  | zero => rfl
  | succ n ih =>
      obtain ⟨hcapacity, -⟩ := words_steps_blank h N n
      have hbefore : ¬ (m.steps (Tape.blank N) n).machine.Refused := by
        intro hstuck
        rw [steps, step_of_not_ready hstuck.ne_ready] at hrefused
        exact hrefused hstuck
      have hstep := step_with_capacity (h.steps _ n) (hcapacity.trans_le hle) hrefused
      rw [steps, steps, ih hbefore]
      dsimp only
      rw [hstep]

/-- **A tape refuses the first word for which it has no room.** -/
theorem steps_refused_iff (h : m.WellFormed) {n offset : ℕ} :
    (m.steps (Tape.blank N) n).machine.status = .ready ∧
        ((m.steps (Tape.blank N) n).machine.step (m.steps (Tape.blank N) n).sink).answer =
          .error (.outputRefused offset) ↔
      (∃ v, (m.steps (Tape.blank N) n).machine.offered? = some v) ∧
        (m.steps (Tape.blank N) n).machine.ip = offset ∧ m.offers (Tape.blank N) n = N := by
  obtain ⟨hcapacity, hwords, hsize⟩ := words_steps_blank h N n
  rw [step_refused_iff (h.steps _ n), hcapacity]
  refine and_congr_right fun hoffered => and_congr_right fun _ => ?_
  -- as long as it is offered words, the machine has printed all of them
  obtain ⟨v, hv⟩ := hoffered
  obtain ⟨hready, -⟩ := exists_effect_of_offered? hv
  rw [offers_eq m _ hready, ← hwords, Array.length_toList]
  omega

/-- What is on a tape that has refused a word: as many words as it has room for, and
those are the first ones that are printed on any longer tape. -/
lemma words_of_refused (h : m.WellFormed) (hready : m.status = .ready) (hle : N ≤ N') {n : ℕ}
    (hrefused : (m.steps (Tape.blank N) n).machine.Refused) :
    (m.steps (Tape.blank N) n).sink.words.size = N ∧ ∀ k ≥ n,
      (m.steps (Tape.blank N) n).sink.words.toList = (m.prints (Tape.blank N') k).take N := by
  induction n with
  | zero => exact absurd hready hrefused.ne_ready
  | succ n ih =>
      rw [steps] at hrefused ⊢
      dsimp only at hrefused ⊢
      by_cases hready' : (m.steps (Tape.blank N) n).machine.status = .ready
      · -- this is the step that is refused, and up to here the tapes are alike
        obtain ⟨hsink, hfull⟩ := Refused.of_step (h.steps _ n) hready' hrefused
        have hsame := steps_with_capacity h hle (n := n) (·.ne_ready hready')
        obtain ⟨hcapacity, -, hsize⟩ := words_steps_blank h N n
        obtain ⟨-, hwords', -⟩ := words_steps_blank h N' n
        rw [hsame] at hwords'
        rw [hsink]
        have hlength : (m.steps (Tape.blank N) n).sink.words.size = N := by omega
        refine ⟨hlength, fun k hk => ?_⟩
        have hprefix := prints_isPrefix m (Tape.blank N') (Nat.le_of_succ_le hk)
        rw [← hwords', List.prefix_iff_eq_take, Array.length_toList] at hprefix
        rwa [hlength] at hprefix
      · rw [step_of_not_ready hready'] at hrefused ⊢
        obtain ⟨hsize, htake⟩ := ih hrefused
        exact ⟨hsize, fun k hk => htake k (Nat.le_of_succ_le hk)⟩

variable {capacity limits : Limits} {program : Bytes}

/-- **The sink can only stop a run**: take a program, and two tapes that are blank at
first, the second with room for at least as many words. As long as the first one has
refused nothing, the program answers the same after any number of steps, is in the
same state and has printed the same words. The first tape refuses exactly the word of
the `PRINT` that finds one when `N` others have found one before it. Then it holds `N`
words, which are the first ones that the second tape ever gets. In every state a step
puts those words on a tape that a `PRINT` takes off the stack, and no others. So a
tape has what has been printed, in order and never more than it has room for, also
after any steps and runs that it has been used for one after the other. -/
theorem sink_only_stops (hload : load capacity limits program = .ok m) (hle : N ≤ N') :
    (∀ n,
      let now := m.steps (Tape.blank N) n
      let now' := m.steps (Tape.blank N') n
      ((∀ offset, now.machine.status ≠ .faulted (.outputRefused offset)) →
        now'.answers = now.answers ∧ now'.machine = now.machine ∧
          now'.sink.words = now.sink.words) ∧
      (∀ offset, now.machine.status = .ready ∧
          (now.machine.step now.sink).answer = .error (.outputRefused offset) ↔
        (∃ v, now.machine.offered? = some v) ∧ now.machine.ip = offset ∧
          m.offers (Tape.blank N) n = N) ∧
      (∀ offset, now.machine.status = .faulted (.outputRefused offset) →
        now.sink.words.size = N ∧
          ∀ k ≥ n, now.sink.words.toList = (m.prints (Tape.blank N') k).take N) ∧
      now.sink.words.toList = m.prints (Tape.blank N) n ∧ now.sink.words.size ≤ N) ∧
    (∀ later, Life capacity limits program later → ∀ t : Tape,
      (later.step t).sink = t.extend (later.printed? t).toList ∧
        ∀ v, later.printed? t = some v → later.attempted? = some .print ∧
          later.stack = v :: (later.step t).machine.stack) ∧
    ∀ calls after, m.calls (Tape.blank N) (calls.map (·, id)) = some after →
      after.sink.words.toList = m.callsPrint (Tape.blank N) calls ∧
        after.sink.words.size ≤ N := by
  have h : m.WellFormed := .of_load hload
  have hready : m.status = .ready := by
    rw [← restart_of_load hload]
    rfl
  refine ⟨fun n => ⟨fun hnot => ?_, fun offset => steps_refused_iff h, fun offset hstatus =>
    words_of_refused h hready hle ⟨offset, hstatus⟩, (words_steps_blank h N n).2⟩,
    fun later hlater t => ⟨?_, fun v hv => stack_of_printed? hlater.wellFormed hv⟩,
    fun calls after hcalls => (takes_calls h _ hcalls).toList_words⟩
  · rw [steps_with_capacity h hle (not_exists.mpr hnot)]
    exact ⟨rfl, rfl, rfl⟩
  · exact (takes_step hlater.wellFormed t).eq_extend

/-- `PUSH 1`, `PRINT`, `PUSH 2`, `PRINT` and `STOP`, with room for one word and with
room for two: both go the same way up to the second `PRINT`, which the first tape
refuses. It holds the first word that is on the other one in the end. After a run, a
step and another run with the same short tape there is still one word on it. -/
theorem sink_only_stops_at_second_print :
    let m := fresh ⟨8, 4, 16⟩ ⟨2, 3, 13⟩ #[1, 1, 0, 0, 0, 12, 1, 2, 0, 0, 0, 12, 13]
    (m.steps (Tape.blank 2) 3).machine = (m.steps (Tape.blank 1) 3).machine ∧
      ((m.steps (Tape.blank 1) 3).machine.step (m.steps (Tape.blank 1) 3).sink).answer =
        .error (.outputRefused 11) ∧
      (m.steps (Tape.blank 1) 4).sink.words.toList = (m.prints (Tape.blank 2) 5).take 1 ∧
      m.prints (Tape.blank 2) 5 = [1, 2] ∧
      ∃ after, m.calls (Tape.blank 1) ([.run 9, .step, .run 9].map (·, id)) = some after ∧
        after.sink.words.toList = [1] := by
  intro m
  have hload : load ⟨8, 4, 16⟩ ⟨2, 3, 13⟩ #[1, 1, 0, 0, 0, 12, 1, 2, 0, 0, 0, 12, 13] = .ok m :=
    load_eq_ok_iff.mpr ⟨fun r => by cases r <;> decide, by decide, rfl⟩
  obtain ⟨hsteps, -, hcalls⟩ := sink_only_stops hload (Nat.le_succ 1)
  have hready : (m.steps (Tape.blank 1) 3).machine.status = .ready := by decide +kernel
  have hstatus : (m.steps (Tape.blank 1) 4).machine.status = .faulted (.outputRefused 11) := by
    decide +kernel
  have hoffered : (m.steps (Tape.blank 1) 3).machine.offered? = some 2 := by decide +kernel
  have hip : (m.steps (Tape.blank 1) 3).machine.ip = 11 := by decide +kernel
  have hoffers : m.offers (Tape.blank 1) 3 = 1 := by decide +kernel
  have hprints : m.prints (Tape.blank 2) 5 = [1, 2] := by decide +kernel
  have hprinted : m.callsPrint (Tape.blank 1) [.run 9, .step, .run 9] = [1] := by decide +kernel
  obtain ⟨after, hafter⟩ : ∃ after,
      m.calls (Tape.blank 1) ([.run 9, .step, .run 9].map (·, id)) = some after :=
    Option.isSome_iff_exists.mp (by decide +kernel)
  obtain ⟨hsame, hrefuses, -⟩ := hsteps 3
  obtain ⟨-, -, hfirst, -⟩ := hsteps 4
  obtain ⟨-, hmachine, -⟩ := hsame (by simp [hready])
  obtain ⟨-, hanswer⟩ := (hrefuses 11).mpr ⟨⟨2, hoffered⟩, hip, hoffers⟩
  obtain ⟨-, htake⟩ := hfirst 11 hstatus
  obtain ⟨hend, -⟩ := hcalls _ after hafter
  rw [hprinted] at hend
  exact ⟨hmachine, hanswer, htake 5 (by decide), hprints, after, hafter, hend⟩

end Machine

end Bytecode
