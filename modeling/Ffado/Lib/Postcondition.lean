import Mathlib.Tactic

/-!
# Postconditions of partial computations

`Ensures r Q` says that the computation `r` answers only with values that satisfy `Q`. The
rules follow the way a computation is put together, so that a proof about it can do the same.
-/
namespace Postcondition

universe u

variable {α β : Type u} {r : Option α} {Q Q' : α → Prop}

def Ensures (r : Option α) (Q : α → Prop) : Prop := ∀ a, r = some a → Q a

@[simp] theorem ensures_some {a : α} : Ensures (some a) Q ↔ Q a := by
  simp [Ensures]

@[simp] theorem ensures_none : Ensures (none : Option α) Q := by
  simp [Ensures]

theorem Ensures.mono (h : Ensures r Q) (himp : ∀ a, Q a → Q' a) : Ensures r Q' := by
  intro a ha
  exact himp a (h a ha)

/-- The second computation may use what the first one ensures. -/
theorem Ensures.bind {k : α → Option β} {P : β → Prop} (h : Ensures r Q)
    (hk : ∀ a, Q a → Ensures (k a) P) : Ensures (r >>= k) P := by
  intro b hb
  obtain ⟨a, ha, hka⟩ := Option.bind_eq_some_iff.mp hb
  exact hk a (h a ha) b hka

/-- Nothing is known about the first computation. -/
theorem ensures_bind {k : α → Option β} {P : β → Prop} (hk : ∀ a, Ensures (k a) P) :
    Ensures (r >>= k) P := by
  intro b hb
  obtain ⟨a, -, hka⟩ := Option.bind_eq_some_iff.mp hb
  exact hk a b hka

theorem Ensures.ite {c : Prop} [Decidable c] {r' : Option α} (h : c → Ensures r Q)
    (h' : ¬ c → Ensures r' Q) : Ensures (if c then r else r') Q := by
  split_ifs with hc
  · exact h hc
  · exact h' hc

/-- A list computation succeeds element by element. -/
theorem forall₂_of_mapM {f : α → Option β} {l : List α} {l' : List β}
    (h : l.mapM f = some l') : List.Forall₂ (fun a b => f a = some b) l l' := by
  induction l generalizing l' with
  | nil =>
    cases h
    exact .nil
  | cons a l ih =>
    rw [List.mapM_cons] at h
    simp only [Option.bind_eq_bind, Option.bind_eq_some_iff] at h
    obtain ⟨b, hb, bs, hbs, h⟩ := h
    cases h
    exact .cons hb (ih hbs)

end Postcondition
