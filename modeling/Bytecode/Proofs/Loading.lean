/-
Loading: which programs a machine accepts, and what is wrong with the others.

* `Limits.adjust`: limits that are set one after the other. The last number that is
  given for a resource counts (`get_adjust`);
* `Limits.misfit?`: the first resource whose limit is out of its range, which is the
  one that the check names;
* `load_eq_error_iff`: why a program is not loaded, the other side of
  `load_eq_ok_iff`;
* `loading_accepts_what_fits` (**what can be loaded**): whatever the limits were made
  of, they are looked at before the program, and a program that fits is loaded into a
  machine that has not begun.
-/
import Mathlib
import Bytecode.Proofs.Representation

namespace Bytecode

/-! ### Limits that were set -/

namespace Limits

/-- The limits with another number for some resources, one after the other. -/
def adjust (l : Limits) (settings : List (Resource × ℕ)) : Limits :=
  settings.foldl (fun l setting => l.set setting.1 setting.2) l

/-- **The last number counts** that is given for a resource, and without one the limit
stays. -/
lemma get_adjust (l : Limits) (settings : List (Resource × ℕ)) (r : Resource) :
    (l.adjust settings).get r = (settings.reverse.lookup r).getD (l.get r) := by
  induction settings using List.reverseRecOn with
  | nil => rfl
  | append_singleton settings setting ih =>
      rw [adjust, List.foldl_append, List.foldl_cons, List.foldl_nil, ← adjust, get_set, ih,
        List.reverse_append, List.reverse_singleton, List.singleton_append, List.lookup_cons]
      by_cases hr : r = setting.1
      · simp [hr]
      · simp [hr, beq_eq_false_iff_ne.mpr hr]

/-! ### Limits out of range -/

/-- The first resource whose limit is out of its range. -/
def misfit? (l capacity : Limits) : Option Resource :=
  [.stack, .registers, .memory].find? fun r => ¬ Fits l capacity r

/-- No resource has a limit out of its range exactly if all are within. -/
lemma misfit?_eq_none_iff {l capacity : Limits} :
    l.misfit? capacity = none ↔ ∀ r, Fits l capacity r := by
  rw [misfit?, List.find?_eq_none]
  constructor
  · intro h r
    have hr : r ∈ [Resource.stack, .registers, .memory] := by cases r <;> decide
    simpa using h r hr
  · intro h r _
    simpa using h r

/-- Limits none of which is out of its range pass the check. -/
lemma check_of_misfit?_eq_none {l capacity : Limits} (h : l.misfit? capacity = none) :
    l.check capacity = .ok () :=
  check_eq_ok_iff.mpr (misfit?_eq_none_iff.mp h)

/-- The check names the first resource whose limit is out of its range. -/
lemma check_of_misfit?_eq_some {l capacity : Limits} {r : Resource}
    (h : l.misfit? capacity = some r) :
    l.check capacity = .error (.limitOutOfRange r (l.get r) (capacity.get r)) := by
  rw [misfit?] at h
  rw [check]
  by_cases hstack : Fits l capacity .stack
  · by_cases hregisters : Fits l capacity .registers
    · by_cases hmemory : Fits l capacity .memory
      · simp [hstack, hregisters, hmemory] at h
      · obtain rfl : Resource.memory = r := by simpa [hstack, hregisters, hmemory] using h
        simp [checkOne, hstack, hregisters, hmemory, bind, Except.bind]
    · obtain rfl : Resource.registers = r := by simpa [hstack, hregisters] using h
      simp [checkOne, hstack, hregisters, bind, Except.bind]
  · obtain rfl : Resource.stack = r := by simpa [hstack] using h
    simp [checkOne, hstack, bind, Except.bind]

end Limits

/-! ### Programs that are refused -/

namespace Machine

variable {capacity limits : Limits} {program : Bytes}

/-- **What is refused**: a program is not loaded if a limit is out of its range, and the
first one is named, or else if it does not fit the memory. -/
theorem load_eq_error_iff {e : LoadError} :
    load capacity limits program = .error e ↔
      (∃ r, limits.misfit? capacity = some r ∧
        e = .limitOutOfRange r (limits.get r) (capacity.get r)) ∨
      limits.misfit? capacity = none ∧ limits.memorySize < program.size ∧
        e = .programTooLarge program.size limits.memorySize := by
  cases hmisfit : limits.misfit? capacity with
  | some r =>
      rw [load, Limits.check_of_misfit?_eq_some hmisfit]
      simp [eq_comm]
  | none =>
      by_cases hlarge : limits.memorySize < program.size
      · rw [load, Limits.check_of_misfit?_eq_none hmisfit]
        simp [hlarge, eq_comm]
      · have hload := load_eq_ok_iff.mpr
          ⟨Limits.misfit?_eq_none_iff.mp hmisfit, Nat.le_of_not_lt hlarge, rfl⟩
        simp [hload, hlarge]

/-- A program is loaded exactly if no limit is out of its range and the program fits the
memory. -/
lemma exists_load_iff :
    (∃ m, load capacity limits program = .ok m) ↔
      (∀ r, Limits.Fits limits capacity r) ∧ program.size ≤ limits.memorySize := by
  simp only [load_eq_ok_iff, exists_and_left, exists_eq, and_true]

/-- With the capacities as limits nothing is loaded where one of them is zero: that leaves
no number for its limit, and the first such is named. -/
lemma boot_of_get_eq_zero {r : Resource} (hr : capacity.get r = 0) :
    ∃ first, capacity.get first = 0 ∧
      boot capacity program = .error (.limitOutOfRange first 0 0) := by
  have hnone : capacity.misfit? capacity ≠ none := by
    intro hnone
    have hfit : 1 ≤ capacity.get r := (Limits.misfit?_eq_none_iff.mp hnone r).1
    omega
  obtain ⟨first, hfirst⟩ := Option.ne_none_iff_exists'.mp hnone
  have hzero : capacity.get first = 0 := by
    have hnot := List.find?_some hfirst
    simp only [Limits.Fits, le_refl, and_true, decide_eq_true_eq] at hnot
    omega
  refine ⟨first, hzero, load_eq_error_iff.mpr (.inl ⟨first, hfirst, ?_⟩)⟩
  rw [hzero]

/-- **What can be loaded**: take limits that are set one after the other, from any
others. A program is loaded exactly if the last number given for every resource lies
between one and the capacity, and the program has no more bytes than that allows. If
it is not, then the first of the stack, the registers and the memory whose number is
out of its range is named, and the size of the program only if there is none. What is
loaded is the program with zeros behind it, in a machine with zeros in its registers
and nothing on its stack, that stands at its start. With the capacities as limits
nothing is loaded where one of them is zero. -/
theorem loading_accepts_what_fits (capacity base : Limits) (settings : List (Resource × ℕ))
    (program : Bytes) :
    let given (r : Resource) : ℕ := (settings.reverse.lookup r).getD (base.get r)
    let order : List Resource := [.stack, .registers, .memory]
    let limits := base.adjust settings
    order.map Resource.option = ["stack_size", "num_registers", "max_program_bytes"] ∧
    ((∃ m, load capacity limits program = .ok m) ↔
      (∀ r, 1 ≤ given r ∧ given r ≤ capacity.get r) ∧ program.size ≤ given .memory) ∧
    (∀ e, load capacity limits program = .error e ↔
      (∃ r, order.find? (fun r => ¬ (1 ≤ given r ∧ given r ≤ capacity.get r)) = some r ∧
        e = .limitOutOfRange r (given r) (capacity.get r)) ∨
      (∀ r, 1 ≤ given r ∧ given r ≤ capacity.get r) ∧ given .memory < program.size ∧
        e = .programTooLarge program.size (given .memory)) ∧
    (∀ m, load capacity limits program = .ok m →
      (∀ r, m.limits.get r = given r) ∧ m.program = program ∧
        m.memory = program ++ Array.replicate (capacity.memorySize - program.size) 0 ∧
        m.registers = Array.replicate capacity.registerCount 0 ∧
        m.stack = [] ∧ m.ip = 0 ∧ m.status = .ready) ∧
    boot capacity program = load capacity capacity program ∧
    ∀ r, capacity.get r = 0 → ∃ first, capacity.get first = 0 ∧
      boot capacity program = .error (.limitOutOfRange first 0 0) := by
  intro given order limits
  have hgiven : ∀ r, limits.get r = given r := base.get_adjust settings
  have hfits : ∀ r, Limits.Fits limits capacity r ↔ 1 ≤ given r ∧ given r ≤ capacity.get r := by
    intro r
    rw [Limits.Fits, hgiven]
  have hmemory : limits.memorySize = given .memory := hgiven .memory
  have hmisfit : limits.misfit? capacity
      = order.find? fun r => ¬ (1 ≤ given r ∧ given r ≤ capacity.get r) := by
    simp only [Limits.misfit?, hfits, order]
  refine ⟨rfl, ?_, fun e => ?_, fun m hload => ?_, rfl, fun r => boot_of_get_eq_zero⟩
  · rw [exists_load_iff, hmemory]
    simp only [hfits]
  · rw [load_eq_error_iff, Limits.misfit?_eq_none_iff, hmisfit, hmemory]
    simp only [hfits, hgiven]
  · have hprogram : m.program = program := (Life.load hload).program_eq
    obtain ⟨-, -, rfl⟩ := load_eq_ok_iff.mp hload
    exact ⟨hgiven, hprogram, rfl, rfl, rfl, rfl, rfl⟩

/-- A machine without a stack, without registers and without memory. -/
example : boot ⟨0, 0, 0⟩ #[] = .error (.limitOutOfRange .stack 0 0) := rfl

end Machine

end Bytecode
