import Mathlib.Tactic

/-!
# Runs of labelled steps

`Run R s es s'` is a run from `s` to `s'` whose steps are labelled by the events `es`.
A component that is a partial step function (`none` means that the process ends in the
step) becomes such a relation by `Guarded`, together with a condition that each event has
to meet in the state it happens in. The condition of an unrestricted run is `Always`.
-/
namespace LabelledRun

variable {σ ε : Type*} {R : σ → ε → σ → Prop} {step : σ → ε → Option σ}

variable {es : List ε} {s s' : σ} {guard : σ → ε → Prop}

inductive Run (R : σ → ε → σ → Prop) : σ → List ε → σ → Prop
  | nil (s : σ) : Run R s [] s
  | cons {s s' s'' : σ} {e : ε} {es : List ε} :
      R s e s' → Run R s' es s'' → Run R s (e :: es) s''

theorem Run.invariant (inv : σ → Prop) (hrun : Run R s es s')
    (hstep : ∀ s e s', inv s → R s e s' → inv s') (h : inv s) : inv s' := by
  induction hrun with
  | nil => exact h
  | cons hR _ ih => exact ih (hstep _ _ _ h hR)

theorem Run.append {s'' : σ} {es' : List ε} (h : Run R s es s') (h' : Run R s' es' s'') :
    Run R s (es ++ es') s'' := by
  induction h with
  | nil => exact h'
  | cons hR _ ih => exact .cons hR (ih h')

/-- What holds of the label of every step holds of every label of a run. -/
theorem Run.forall_mem {Q : ε → Prop} (hstep : ∀ s e s', R s e s' → Q e) (hrun : Run R s es s') :
    ∀ e ∈ es, Q e := by
  induction hrun with
  | nil => simp
  | cons hR _ ih => exact List.forall_mem_cons.mpr ⟨hstep _ _ _ hR, ih⟩

def Guarded (guard : σ → ε → Prop) (step : σ → ε → Option σ) (s : σ) (e : ε) (s' : σ) : Prop :=
  guard s e ∧ step s e = some s'

/-- The condition that every event meets. -/
def Always : σ → ε → Prop := fun _ _ => True

theorem Run.always (h : Run (Guarded guard step) s es s') : Run (Guarded Always step) s es s' := by
  induction h with
  | nil s => exact .nil s
  | cons hR _ ih => exact .cons ⟨trivial, hR.2⟩ ih

/-- A condition under which steps keep `inv`, and without which a step ends outside `good`, is
met by exactly the runs that stay in `good`. -/
theorem run_stays_iff_guarded {inv good : σ → Prop} (hgood : ∀ s, inv s → good s)
    (hkeep : ∀ s e s', inv s → Guarded guard step s e s' → inv s')
    (hleave : ∀ s e s', inv s → step s e = some s' → ¬ guard s e → ¬ good s')
    (hrun : Run (Guarded Always step) s es s') (h : inv s) :
    (∀ es₁ s₁, es₁ <+: es → Run (Guarded Always step) s es₁ s₁ → good s₁) ↔
      Run (Guarded guard step) s es s' := by
  induction hrun with
  | nil s =>
    refine ⟨fun _ => .nil s, fun _ es₁ s₁ hpre hrun₁ => ?_⟩
    rw [List.prefix_nil.mp hpre] at hrun₁
    cases hrun₁
    exact hgood s h
  | @cons s t s' e es hR hrest ih =>
    constructor
    · intro hall
      have hguard : guard s e := by
        by_contra hnot
        exact hleave s e t h hR.2 hnot (hall [e] t (by simp) (.cons hR (.nil t)))
      refine .cons ⟨hguard, hR.2⟩ ((ih (hkeep s e t h ⟨hguard, hR.2⟩)).mp ?_)
      intro es₁ s₁ hpre hrun₁
      exact hall (e :: es₁) s₁ ((List.prefix_cons_inj e).mpr hpre) (.cons hR hrun₁)
    · intro hguarded es₁ s₁ hpre hrun₁
      cases hguarded with
      | @cons _ t' _ _ _ hR' hrest' =>
        obtain rfl : t = t' := Option.some.inj (hR.2.symm.trans hR'.2)
        cases hrun₁ with
        | nil => exact hgood s h
        | @cons _ t' _ e' es₁ hR₁ hrun₁ =>
          obtain ⟨rfl, htail⟩ := List.cons_prefix_cons.mp hpre
          obtain rfl : t = t' := Option.some.inj (hR.2.symm.trans hR₁.2)
          exact (ih (hkeep s e' t h hR')).mpr hrest' es₁ s₁ htail hrun₁

/-- The step function with its condition checked first. -/
def checked (guard : σ → ε → Prop) [∀ s e, Decidable (guard s e)] (step : σ → ε → Option σ) (s : σ)
    (e : ε) : Option σ :=
  if guard s e then step s e else none

theorem run_of_checked [∀ s e, Decidable (guard s e)]
    (h : es.foldlM (checked guard step) s = some s') : Run (Guarded guard step) s es s' := by
  induction es generalizing s with
  | nil =>
    cases h
    exact .nil _
  | cons e es ih =>
    rw [List.foldlM_cons, Option.bind_eq_bind, Option.bind_eq_some_iff] at h
    obtain ⟨s₁, hs, hrest⟩ := h
    unfold checked at hs
    split_ifs at hs with hguard
    exact .cons ⟨hguard, hs⟩ (ih hrest)

instance (s : σ) (e : ε) : Decidable (Always s e) := inferInstanceAs (Decidable True)

theorem run_of_foldlM (h : es.foldlM step s = some s') :
    Run (Guarded Always step) s es s' := by
  apply run_of_checked
  rw [show checked Always step = step from rfl]
  exact h

/-- A run that a computation shows to end where `p` holds. -/
theorem exists_run_of_foldlM (p : σ → Bool) (h : (es.foldlM step s).map p = some true) :
    ∃ s', Run (Guarded Always step) s es s' ∧ p s' = true := by
  obtain ⟨s', hs', hp⟩ := Option.map_eq_some_iff.mp h
  exact ⟨s', run_of_foldlM hs', hp⟩

/-- Every event of a sequence satisfies `P` in the state in which it happens. -/
def Along (step : σ → ε → σ) (P : σ → ε → Prop) : σ → List ε → Prop
  | _, [] => True
  | s, e :: es => P s e ∧ Along step P (step s e) es

theorem Along.imp {step : σ → ε → σ} {P Q : σ → ε → Prop} (h : Along step P s es)
    (himp : ∀ s e, P s e → Q s e) : Along step Q s es := by
  induction es generalizing s with
  | nil => trivial
  | cons e es ih => exact ⟨himp s e h.1, ih h.2⟩

/-- Two properties of events agree along a sequence if they agree wherever it comes through. -/
theorem Along.iff {step : σ → ε → σ} {P Q : σ → ε → Prop}
    (h : Along step (fun s e => P s e ↔ Q s e) s es) : Along step P s es ↔ Along step Q s es := by
  induction es generalizing s with
  | nil => exact Iff.rfl
  | cons e es ih => exact and_congr h.1 (ih h.2)

/-- Two properties of events agree along a sequence if they agree in all states that belong
together, and events with the first one lead to states that belong together. -/
theorem along_iff {τ : Type*} {step : σ → ε → σ} {step' : τ → ε → τ} {P : σ → ε → Prop}
    {Q : τ → ε → Prop} (rel : σ → τ → Prop) {t : τ}
    (hiff : ∀ s t, ∀ e ∈ es, rel s t → (P s e ↔ Q t e))
    (hkeep : ∀ s t, ∀ e ∈ es, rel s t → P s e → rel (step s e) (step' t e)) (h : rel s t) :
    Along step P s es ↔ Along step' Q t es := by
  induction es generalizing s t with
  | nil => exact Iff.rfl
  | cons e es ih =>
    have hhead := hiff s t e List.mem_cons_self h
    have hrest : P s e → (Along step P (step s e) es ↔ Along step' Q (step' t e) es) := by
      intro hP
      exact ih (fun s t e he => hiff s t e (List.mem_cons_of_mem _ he))
        (fun s t e he => hkeep s t e (List.mem_cons_of_mem _ he))
        (hkeep s t e List.mem_cons_self h hP)
    constructor
    · rintro ⟨hP, hPs⟩
      exact ⟨hhead.mp hP, (hrest hP).mp hPs⟩
    · rintro ⟨hQ, hQs⟩
      exact ⟨hhead.mpr hQ, (hrest (hhead.mpr hQ)).mpr hQs⟩

end LabelledRun
