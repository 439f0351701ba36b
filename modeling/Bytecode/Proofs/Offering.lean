/-
What a machine offers to its sink.

* `Machine.offered?`: the word that the next step offers, which is the top of the
  stack;
* `prints_or_silent`, `offered?_eq_some_iff`: the next instruction prints what is
  offered, or nothing;
* `step_of_silent`, `step_of_taken`, `step_of_refused`: a step that offers nothing
  comes to the same with any sink, and one that offers a word goes on or not as the
  sink decides;
* `nextEffect_ne_outputRefused`: no instruction faults in the name of the sink.
-/
import Mathlib
import Bytecode.Proofs.Steps
import Bytecode.Proofs.Testimony

namespace Bytecode.Machine

variable {m : Machine}

/-! ### What is offered -/

/-- The word that the next step offers to its sink: a `PRINT` offers the top of the
stack. -/
def offered? (m : Machine) : Option Word :=
  if m.attempted? = some .print then m.top? else none

/-- The next instruction prints a word, or none does. -/
lemma prints_or_silent (m : Machine) :
    (m.status = .ready ∧ ∃ e v, m.nextEffect = .ok (some e) ∧ e.printed? = some v) ∨
      (m.status = .ready → ∀ e, m.nextEffect = .ok (some e) → e.printed? = none) := by
  by_cases hprints : m.status = .ready ∧ ∃ e v, m.nextEffect = .ok (some e) ∧ e.printed? = some v
  · exact .inl hprints
  · refine .inr fun hready e he => ?_
    by_contra hv
    obtain ⟨v, hv⟩ := Option.ne_none_iff_exists'.mp hv
    exact hprints ⟨hready, e, v, he, hv⟩

/-- What is offered is on top of the stack, and what is left of the stack when it has
been printed lies below it. -/
lemma exists_effect_of_offered? {v : Word} (hv : m.offered? = some v) :
    m.status = .ready ∧
      ∃ e, m.nextEffect = .ok (some e) ∧ e.printed? = some v ∧ m.stack = v :: e.stack := by
  rw [offered?] at hv
  split_ifs at hv with hprint
  obtain ⟨hready, next, hfetch⟩ := attempted?_eq_some_iff.mp hprint
  obtain ⟨rest, hstack⟩ := List.head?_eq_some_iff.mp hv
  refine ⟨hready, ⟨rest, next, .print v⟩, ?_, rfl, hstack⟩
  rw [nextEffect, hfetch]
  dsimp only
  rw [effect, hstack]

/-- A word is offered exactly if the next instruction prints it. -/
lemma offered?_eq_some_iff {v : Word} :
    m.offered? = some v ↔
      m.status = .ready ∧ ∃ e, m.nextEffect = .ok (some e) ∧ e.printed? = some v := by
  constructor
  · intro hv
    obtain ⟨hready, e, he, hprinted, -⟩ := exists_effect_of_offered? hv
    exact ⟨hready, e, he, hprinted⟩
  · rintro ⟨hready, e, he, hprinted⟩
    obtain ⟨i, next, hfetch, heffect⟩ := exists_of_nextEffect he
    obtain ⟨rfl, htop⟩ := eq_print_of_effect heffect hprinted
    rw [offered?, if_pos (attempted?_eq_some_iff.mpr ⟨hready, next, hfetch⟩), htop]

/-- Where nothing is offered, the next instruction prints nothing. -/
lemma silent_of_offered?_eq_none (hnone : m.offered? = none) (hready : m.status = .ready)
    (e : Effect) (he : m.nextEffect = .ok (some e)) : e.printed? = none := by
  by_contra hprinted
  obtain ⟨v, hv⟩ := Option.ne_none_iff_exists'.mp hprinted
  rw [offered?_eq_some_iff.mpr ⟨hready, e, he, hv⟩] at hnone
  cases hnone

/-! ### What becomes of it -/

/-- A step that prints nothing comes to the same with any sink, and leaves it. -/
lemma step_of_silent {σ τ : Type} [Sink σ] [Sink τ] (h : m.WellFormed)
    (hsilent : m.status = .ready → ∀ e, m.nextEffect = .ok (some e) → e.printed? = none)
    (s : σ) (t : τ) :
    (m.step s).sink = s ∧ m.step t = ⟨(m.step s).answer, (m.step s).machine, t⟩ := by
  by_cases hready : m.status = .ready
  · have hnone := hsilent hready
    rw [step_of_ready h hready, step_of_ready h hready]
    cases he : m.nextEffect with
    | error fault => exact ⟨rfl, rfl⟩
    | ok effect? =>
        cases effect? with
        | none => exact ⟨rfl, rfl⟩
        | some e =>
            rw [realise, realise, hnone e he]
            exact ⟨rfl, rfl⟩
  · rw [step_of_not_ready hready, step_of_not_ready hready]
    exact ⟨rfl, rfl⟩

/-- A step that prints a word which the sink takes. -/
lemma step_of_taken {σ : Type} [Sink σ] (h : m.WellFormed) (hready : m.status = .ready)
    {e : Effect} {v : Word} (he : m.nextEffect = .ok (some e)) (hv : e.printed? = some v)
    {s s' : σ} (hprint : Sink.print s v = .ok s') : m.step s = ⟨.ok .ready, m.after e, s'⟩ := by
  rw [step_of_ready h hready, he, realise, hv]
  dsimp only
  rw [hprint, ← withStatus_after hready e]
  rfl

/-- A step that prints a word which the sink refuses. -/
lemma step_of_refused {σ : Type} [Sink σ] (h : m.WellFormed) (hready : m.status = .ready)
    {e : Effect} {v : Word} (he : m.nextEffect = .ok (some e)) (hv : e.printed? = some v)
    {s s' : σ} (hprint : Sink.print s v = .error s') :
    m.step s = ⟨.error (.outputRefused m.ip),
      m.withStatus (.faulted (.outputRefused m.ip)), s'⟩ := by
  rw [step_of_ready h hready, he, realise, hv]
  dsimp only
  rw [hprint]
  rfl

/-- The fault of an instruction is never that of a sink: where a `PRINT` finds a
word, it prints it. -/
lemma nextEffect_ne_outputRefused (h : m.WellFormed) (offset : ℕ) :
    m.nextEffect ≠ .error (.outputRefused offset) := by
  intro he
  obtain ⟨-, hstands, hdepth⟩ := bearsOut_of_nextEffect h he
  have hdecode : m.code.decodeAt m.ip = .ok .print := Code.decodeAt_of_encode_isPrefix hstands
  obtain ⟨v, rest, hstack⟩ := List.exists_cons_of_length_pos hdepth
  rw [nextEffect, fetch_eq] at he
  by_cases hend : m.limits.memorySize ≤ m.ip
  · rw [if_pos hend] at he
    cases he
  · rw [if_neg hend, hdecode] at he
    simp [effect, hstack] at he

end Bytecode.Machine
