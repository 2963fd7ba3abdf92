import Mathlib.Tactic

/-!
# Programs over shared memory

A program is a sequence of atomic actions on a memory that others may change between them. An
action reads and changes the memory in one step, and what follows depends on what it read.
`Upholds` says that a program keeps an invariant if the others do, and if they leave alone what a
relation names.
-/
namespace SharedProgram

universe u v

inductive Program (σ : Type u) (α : Type v)
  | done (a : α)
  /-- The process ends here. -/
  | abort
  /-- The memory changes by `update`, and `next` sees the memory before the change. -/
  | act (update : σ → σ) (next : σ → Program σ α)

namespace Program

variable {σ : Type u} {α β : Type v}

def bind : Program σ α → (α → Program σ β) → Program σ β
  | .done a, k => k a
  | .abort, _ => .abort
  | .act update next, k => .act update fun s => (next s).bind k

instance : Monad (Program σ) where
  pure := .done
  bind := bind

def read (f : σ → α) : Program σ α := .act id fun s => .done (f s)

def write (f : σ → σ) : Program σ PUnit := .act f fun _ => .done ⟨⟩

/-- A partial computation in one action. The process ends where it has no result. -/
def atomic (f : σ → Option (σ × α)) : Program σ α :=
  .act (fun s => ((f s).map Prod.fst).getD s) fun s => (f s).elim .abort fun r => .done r.2

/-- One action, if there is one left. -/
def step : Program σ α → σ → Option (σ × Program σ α)
  | .act update next, s => some (update s, next s)
  | _, _ => none

def isDone : Program σ α → Bool
  | .done _ => true
  | _ => false

end Program

section Interference

open Program

variable {σ : Type u} {α β : Type v} {R : σ → σ → Prop} {inv : σ → Prop} {s s' : σ}

variable {p : Program σ α} {k : α → Program σ β}

/-- From `s` on, every action keeps the invariant, if the others keep it and change the memory
only within `R` before it. -/
def Upholds (R : σ → σ → Prop) (inv : σ → Prop) : Program σ α → σ → Prop
  | .act update next, s => ∀ s', R s s' → inv s' →
      inv (update s') ∧ Upholds R inv (next s') (update s')
  | _, _ => True

/-- Changes of the others do not matter. -/
theorem Upholds.later [IsTrans σ R] (h : Upholds R inv p s) (hs : R s s') :
    Upholds R inv p s' := by
  cases p with
  | act update next =>
    intro t ht
    exact h t (IsTrans.trans _ _ _ hs ht)
  | _ => trivial

theorem Upholds.step [Std.Refl R] {p' : Program σ α} (h : Upholds R inv p s) (hinv : inv s)
    (hstep : p.step s = some (s', p')) : inv s' ∧ Upholds R inv p' s' := by
  cases p with
  | act update next =>
    cases hstep
    exact h s (Std.Refl.refl s) hinv
  | _ => cases hstep

theorem upholds_pure (a : α) : Upholds R inv (pure a : Program σ α) s := trivial

theorem Upholds.bind (h : Upholds R inv p s) (hk : ∀ a s, Upholds R inv (k a) s) :
    Upholds R inv (p >>= k) s := by
  induction p generalizing s with
  | done a => exact hk a s
  | abort => trivial
  | act update next ih =>
    intro s' hs' hinv
    exact ⟨(h s' hs' hinv).1, ih s' (h s' hs' hinv).2⟩

theorem upholds_read {φ : σ → α} (hk : ∀ s', R s s' → inv s' → Upholds R inv (k (φ s')) s') :
    Upholds R inv (read φ >>= k) s :=
  fun s' hs' hinv => ⟨hinv, hk s' hs' hinv⟩

theorem upholds_write {f : σ → σ} {k : PUnit → Program σ β}
    (hk : ∀ s', R s s' → inv s' → inv (f s') ∧ Upholds R inv (k ⟨⟩) (f s')) :
    Upholds R inv (write f >>= k) s :=
  hk

theorem upholds_atomic_bind {f : σ → Option (σ × α)}
    (hk : ∀ s' r, R s s' → inv s' → f s' = some r → inv r.1 ∧ Upholds R inv (k r.2) r.1) :
    Upholds R inv (atomic f >>= k) s := by
  intro s' hs' hinv
  cases hf : f s' with
  | none =>
    simp only [hf]
    exact ⟨hinv, trivial⟩
  | some r =>
    simp only [hf]
    exact hk s' r hs' hinv hf

theorem upholds_atomic {f : σ → Option (σ × α)}
    (hf : ∀ s' r, R s s' → inv s' → f s' = some r → inv r.1) : Upholds R inv (atomic f) s := by
  intro s' hs' hinv
  cases heq : f s' with
  | none =>
    simp only [heq]
    exact ⟨hinv, trivial⟩
  | some r =>
    simp only [heq]
    exact ⟨hf s' r hs' hinv heq, trivial⟩

theorem Upholds.ite {c : Prop} [Decidable c] {q : Program σ α} (hp : c → Upholds R inv p s)
    (hq : ¬ c → Upholds R inv q s) : Upholds R inv (if c then p else q) s := by
  split_ifs with hc
  · exact hp hc
  · exact hq hc

end Interference

namespace Program

variable {σ : Type u} {α β : Type v} {R : σ → σ → Prop}

def Within (R : σ → σ → Prop) : Program σ α → Prop
  | .act update next => ∀ s, R s (update s) ∧ Within R (next s)
  | _ => True

theorem Within.step {p p' : Program σ α} {s s' : σ} (h : Within R p)
    (hstep : p.step s = some (s', p')) : R s s' ∧ Within R p' := by
  cases p with
  | act update next =>
    cases hstep
    exact h s
  | _ => cases hstep

theorem within_pure (a : α) : Within R (pure a : Program σ α) := trivial

theorem Within.bind {p : Program σ α} {k : α → Program σ β} (h : Within R p)
    (hk : ∀ a, Within R (k a)) : Within R (p >>= k) := by
  induction p with
  | done a => exact hk a
  | abort => trivial
  | act update next ih => exact fun s => ⟨(h s).1, ih s (h s).2⟩

theorem within_read [Std.Refl R] (f : σ → α) : Within R (read f) :=
  fun s => ⟨Std.Refl.refl s, trivial⟩

theorem within_write {f : σ → σ} (hf : ∀ s, R s (f s)) : Within R (write f : Program σ PUnit) :=
  fun s => ⟨hf s, trivial⟩

/-- A program that decides how to go on. -/
theorem Within.branch {γ : Type} {p : Program σ Bool} {q q' : Program σ γ} (h : Within R p)
    (hq : Within R q) (hq' : Within R q') :
    Within R (p >>= fun result => if result then q else q') := by
  induction p with
  | done result =>
    cases result with
    | false => exact hq'
    | true => exact hq
  | abort => trivial
  | act update next ih => exact fun s => ⟨(h s).1, ih s (h s).2⟩

end Program
end SharedProgram
