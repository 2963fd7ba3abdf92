import Mathlib.Tactic

/-!
# Logs of calls

A log has the calls that were made, each with its answer. A call that succeeded is undone if another
one has succeeded after it.
-/
namespace CallLog

variable {γ : Type*} {log log' : List (γ × Bool)} {c u : γ}

/-- Every successful call of `c` is followed by a successful one of `u`. -/
def Undone (c u : γ) : List (γ × Bool) → Prop
  | [] => True
  | e :: log => (e = (c, true) → (u, true) ∈ log) ∧ Undone c u log

theorem undone_of_notMem (h : (c, true) ∉ log) : Undone c u log := by
  induction log with
  | nil => trivial
  | cons e log ih =>
    rw [List.mem_cons, not_or] at h
    exact ⟨fun he => absurd he.symm h.1, ih h.2⟩

theorem Undone.append (h : Undone c u log) (h' : Undone c u log') : Undone c u (log ++ log') := by
  induction log with
  | nil => exact h'
  | cons e log ih =>
    constructor
    · intro he
      exact List.mem_append_left log' (h.1 he)
    · exact ih h.2

/-- Whatever has been called before, it has been undone at the end. -/
theorem undone_append_of_mem (h : (c, true) ∉ log') (hu : (u, true) ∈ log') :
    Undone c u (log ++ log') := by
  induction log with
  | nil => exact undone_of_notMem h
  | cons e log ih => exact ⟨fun _ => List.mem_append_right log hu, ih⟩

/-- A successful call anywhere in the log is undone behind it. -/
theorem Undone.mem_after {before after : List (γ × Bool)}
    (h : Undone c u (before ++ (c, true) :: after)) : (u, true) ∈ after := by
  induction before with
  | nil => exact h.1 rfl
  | cons e before ih => exact ih h.2

theorem not_undone (h : (c, true) ∈ log) (hu : (u, true) ∉ log) : ¬ Undone c u log := by
  induction log with
  | nil => cases h
  | cons e log ih =>
    rintro ⟨hhead, htail⟩
    rw [List.mem_cons, not_or] at hu
    rcases List.mem_cons.mp h with he | hmem
    · exact hu.2 (hhead he.symm)
    · exact ih hmem hu.2 htail

end CallLog
