import Ffado.Lib.Decoding

/-!
# Two runs of a decoder that records failures

A decoder may go on after a failure that its state records. Two decoders agree if, from one state
and without a failure, they end in one state with related values; what they do after a failure does
not matter. For this the record has to be kept (`Keeps`).
-/
namespace Lockstep

open Decoding

universe u

variable {σ α β γ δ : Type u} {ok : σ → Prop}

variable {p : StateT σ Option α}

/-- The value and the state behind a step, and what follows from there. -/
theorem exists_of_bind {f : α → StateT σ Option γ} {s u : σ} {c : γ}
    (h : (p >>= f) s = some (c, u)) : ∃ a t, p s = some (a, t) ∧ f a t = some (c, u) := by
  cases hp : p s with
  | none =>
    rw [run_bind_of_none hp] at h
    cases h
  | some x =>
    obtain ⟨a, t⟩ := x
    rw [run_bind_of_some hp] at h
    exact ⟨a, t, rfl, h⟩

variable (ok) in
/-- A failure is not forgotten. -/
def Keeps (p : StateT σ Option α) : Prop := ∀ s a t, p s = some (a, t) → ok t → ok s

theorem keeps_pure (a : α) : Keeps ok (pure a) := by
  rintro s _ _ ⟨⟩ hok
  exact hok

theorem keeps_failure : Keeps ok (failure : StateT σ Option α) := by
  intro s a t h
  cases h

theorem keeps_get : Keeps ok (get : StateT σ Option σ) := by
  rintro s _ _ ⟨⟩ hok
  exact hok

theorem Keeps.bind {f : α → StateT σ Option γ} (hp : Keeps ok p) (hf : ∀ a, Keeps ok (f a)) :
    Keeps ok (p >>= f) := by
  intro s c u h hok
  obtain ⟨a, t, hpa, hfa⟩ := exists_of_bind h
  exact hp s a t hpa (hf a t c u hfa hok)

theorem Keeps.ite {q : StateT σ Option α} {c : Prop} [Decidable c] (hp : Keeps ok p)
    (hq : Keeps ok q) : Keeps ok (if c then p else q) := by
  split_ifs
  · exact hp
  · exact hq

theorem Keeps.times (hp : Keeps ok p) (n : ℕ) : Keeps ok (times n p) := by
  induction n with
  | zero => exact keeps_pure []
  | succ n ih => exact hp.bind fun _ => ih.bind fun _ => keeps_pure _

variable (ok) in
/-- From one state and without a failure, the decoders end in one state with related values. -/
structure Locked (R : α → β → Prop) (p : StateT σ Option α) (q : StateT σ Option β) : Prop where
  keepsLeft : Keeps ok p
  keepsRight : Keeps ok q
  agree : ∀ s a t b u, p s = some (a, t) → q s = some (b, u) → ok t → ok u → t = u ∧ R a b

theorem Keeps.locked (hp : Keeps ok p) : Locked ok Eq p p := by
  refine ⟨hp, hp, ?_⟩
  intro s a t b u hpa hpb _ _
  rw [hpa] at hpb
  cases hpb
  exact ⟨rfl, rfl⟩

theorem Locked.pure {R : α → β → Prop} {a : α} {b : β} (h : R a b) :
    Locked ok R (Pure.pure a) (Pure.pure b) := by
  refine ⟨keeps_pure a, keeps_pure b, ?_⟩
  rintro s _ _ _ _ ⟨⟩ ⟨⟩ _ _
  exact ⟨rfl, h⟩

theorem locked_failure (R : α → β → Prop) :
    Locked ok R (failure : StateT σ Option α) (failure : StateT σ Option β) := by
  refine ⟨keeps_failure, keeps_failure, ?_⟩
  intro s a t b u h
  cases h

theorem Locked.ite {R : α → β → Prop} {p' : StateT σ Option α} {q q' : StateT σ Option β} {c : Prop}
    [Decidable c] (h : Locked ok R p q) (h' : Locked ok R p' q') :
    Locked ok R (if c then p else p') (if c then q else q') := by
  split_ifs
  · exact h
  · exact h'

section Bind

variable {Q : γ → δ → Prop}

theorem Locked.bindRel {R : α → β → Prop} {p : StateT σ Option α} {q : StateT σ Option β}
    {f : α → StateT σ Option γ} {g : β → StateT σ Option δ} (h : Locked ok R p q)
    (hf : ∀ a, Keeps ok (f a)) (hg : ∀ b, Keeps ok (g b))
    (hfg : ∀ a b, R a b → Locked ok Q (f a) (g b)) : Locked ok Q (p >>= f) (q >>= g) := by
  refine ⟨h.keepsLeft.bind hf, h.keepsRight.bind hg, ?_⟩
  intro s c t' d u' hp hq hok hok'
  obtain ⟨a, t, hpa, hfa⟩ := exists_of_bind hp
  obtain ⟨b, u, hqb, hgb⟩ := exists_of_bind hq
  obtain ⟨rfl, hR⟩ := h.agree s a t b u hpa hqb (hf a t c t' hfa hok) (hg b u d u' hgb hok')
  exact (hfg a b hR).agree t c t' d u' hfa hgb hok hok'

/-- The values of the first step are equal. -/
theorem Locked.bind {p q : StateT σ Option α} {f : α → StateT σ Option γ}
    {g : α → StateT σ Option δ} (h : Locked ok Eq p q) (hfg : ∀ a, Locked ok Q (f a) (g a)) :
    Locked ok Q (p >>= f) (q >>= g) := by
  apply h.bindRel (fun a => (hfg a).keepsLeft) fun a => (hfg a).keepsRight
  rintro a _ rfl
  exact hfg a

end Bind

end Lockstep
