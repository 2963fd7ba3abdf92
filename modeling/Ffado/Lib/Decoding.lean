import Mathlib.Tactic

/-!
# Decoding from a cursor

A decoder takes cells from a cursor and may be undefined. One that decodes `a` from `cells` does so
wherever the cursor is in front of these cells, and leaves it behind them; such decoders compose
along the concatenation of what they read. What is read from other places is described by
properties of an item at its position.
-/
namespace Decoding

universe u v w x

/-- A position in front of cells. -/
class Cursor (σ : Type u) (β : outParam (Type v)) where
  advance : σ → ℕ → σ
  Holds : σ → List β → Prop
  advance_zero : ∀ s, advance s 0 = s
  advance_advance : ∀ s m n, advance (advance s m) n = advance s (m + n)
  holds_append : ∀ {s xs ys}, Holds s (xs ++ ys) ↔ Holds s xs ∧ Holds (advance s xs.length) ys

open Cursor

variable {σ : Type u} {β : Type v} [Cursor σ β] {α γ : Type u}

/-- The decoder in front of `cells` returns `a` and consumes them. -/
def Decodes (p : StateT σ Option α) (cells : List β) (a : α) : Prop :=
  ∀ s, Holds s cells → p s = some (a, advance s cells.length)

theorem decodes_pure (a : α) : Decodes (pure a : StateT σ Option α) ([] : List β) a := by
  intro s _
  rw [List.length_nil, advance_zero]
  rfl

section Bind

variable {p : StateT σ Option α} {cells cells' : List β} {a : α} {f : α → StateT σ Option γ} {c : γ}

variable {s : σ}

omit [Cursor σ β] in
theorem run_bind_of_some {s' : σ} (h : p s = some (a, s')) : (p >>= f) s = f a s' := by
  change (p s).bind _ = _
  rw [h]
  rfl

omit [Cursor σ β] in
theorem run_bind_of_none (h : p s = none) : (p >>= f) s = none := by
  change (p s).bind _ = _
  rw [h]
  rfl

theorem Decodes.run_bind (h : Decodes p cells a) (hs : Holds s cells) :
    (p >>= f) s = f a (advance s cells.length) :=
  run_bind_of_some (h s hs)

theorem Decodes.bind (h : Decodes p cells a) (h' : Decodes (f a) cells' c) :
    Decodes (p >>= f) (cells ++ cells') c := by
  intro s hs
  obtain ⟨hs, hs'⟩ := holds_append.mp hs
  rw [h.run_bind hs, h' _ hs', advance_advance, List.length_append]

/-- What is returned may be any function of what is decoded. -/
theorem Decodes.bindPure (h : Decodes p cells a) (g : α → γ) :
    Decodes (p >>= fun a => pure (g a)) cells (g a) := by
  have hbind := h.bind (f := fun a => pure (g a)) (decodes_pure (g a))
  rwa [List.append_nil] at hbind

omit [Cursor σ β] in
theorem exists_of_isSome_bind (h : ((p >>= f) s).isSome) :
    ∃ a s', p s = some (a, s') ∧ (f a s').isSome := by
  cases hp : p s with
  | none =>
    rw [run_bind_of_none hp] at h
    contradiction
  | some x =>
    obtain ⟨a, s'⟩ := x
    rw [run_bind_of_some hp] at h
    exact ⟨a, s', rfl, h⟩

omit [Cursor σ β] in
/-- What follows the last read of a decoder. -/
theorem run_bind_pure {p : StateT σ Option α} (g : α → γ) (s : σ) :
    (p >>= fun a => pure (g a)) s = (p s).map (Prod.map g id) := by
  change (p s).bind _ = _
  cases p s <;> rfl

end Bind

def times : ℕ → StateT σ Option α → StateT σ Option (List α)
  | 0, _ => pure []
  | n + 1, p => do
    let a ← p
    let as ← times n p
    return a :: as

section Items

variable {ι : Type w} (enc : ι → List β)

variable {p : StateT σ Option α} {s : σ} {P Q : σ → ι → Prop} {f : σ → ι → α}

/-- The property holds of every item, with the cursor in front of it. -/
def AllAt (P : σ → ι → Prop) : σ → List ι → Prop
  | _, [] => True
  | s, x :: xs => P s x ∧ AllAt P (advance s (enc x).length) xs

/-- A function of every item and the cursor in front of it. -/
def mapAt (f : σ → ι → α) : σ → List ι → List α
  | _, [] => []
  | s, x :: xs => f s x :: mapAt f (advance s (enc x).length) xs

variable {enc}

theorem AllAt.imp {xs : List ι} (hs : Holds s (xs.flatMap enc))
    (h : ∀ s, ∀ x ∈ xs, Holds s (enc x) → P s x → Q s x) (hall : AllAt enc P s xs) :
    AllAt enc Q s xs := by
  induction xs generalizing s with
  | nil => trivial
  | cons x xs ih =>
    rw [List.flatMap_cons, holds_append] at hs
    constructor
    · exact h s x List.mem_cons_self hs.1 hall.1
    · exact ih hs.2 (fun s y hy => h s y (List.mem_cons_of_mem x hy)) hall.2

theorem AllAt.congr {xs : List ι} (hs : Holds s (xs.flatMap enc))
    (h : ∀ s, ∀ x ∈ xs, Holds s (enc x) → (P s x ↔ Q s x)) :
    AllAt enc P s xs ↔ AllAt enc Q s xs :=
  ⟨AllAt.imp hs fun s x hx hs => (h s x hx hs).mp, AllAt.imp hs fun s x hx hs => (h s x hx hs).mpr⟩

/-- A decoder that is right about every item, where it stands, is so about all of them. -/
theorem times_run {xs : List ι}
    (h : AllAt enc (fun s x => p s = some (f s x, advance s (enc x).length)) s xs) :
    times xs.length p s = some (mapAt enc f s xs, advance s (xs.flatMap enc).length) := by
  induction xs generalizing s with
  | nil =>
    rw [List.flatMap_nil, List.length_nil, List.length_nil, advance_zero]
    rfl
  | cons x xs ih =>
    obtain ⟨hx, hxs⟩ := h
    change (p s).bind _ = _
    rw [hx]
    change (times xs.length p _).bind _ = _
    rw [ih hxs, advance_advance, List.flatMap_cons, List.length_append]
    rfl

/-- If a decoder that returns is right about the item, the loop has been right about all of them. -/
theorem allAt_of_times {xs : List ι} (hs : Holds s (xs.flatMap enc))
    (hP : ∀ s, ∀ x ∈ xs, Holds s (enc x) → (p s).isSome → P s x)
    (hf : ∀ s, ∀ x ∈ xs, Holds s (enc x) → P s x → p s = some (f s x, advance s (enc x).length))
    (h : (times xs.length p s).isSome) : AllAt enc P s xs := by
  induction xs generalizing s with
  | nil => trivial
  | cons x xs ih =>
    rw [List.flatMap_cons, holds_append] at hs
    obtain ⟨a, s', ha, hrest⟩ := exists_of_isSome_bind h
    have hx := hP s x List.mem_cons_self hs.1 (Option.isSome_of_eq_some ha)
    rw [hf s x List.mem_cons_self hs.1 hx, Option.some.injEq, Prod.mk.injEq] at ha
    obtain ⟨as, s'', has, -⟩ := exists_of_isSome_bind hrest
    rw [← ha.2] at has
    refine ⟨hx, ih hs.2 (fun s y hy => hP s y (List.mem_cons_of_mem x hy))
      (fun s y hy => hf s y (List.mem_cons_of_mem x hy)) (Option.isSome_of_eq_some has)⟩

theorem mapAt_eq_self_iff {ι : Type u} {enc : ι → List β} {f : σ → ι → ι} {xs : List ι} :
    mapAt enc f s xs = xs ↔ AllAt enc (fun s x => f s x = x) s xs := by
  induction xs generalizing s with
  | nil => exact iff_of_true rfl trivial
  | cons x xs ih => rw [mapAt, AllAt, List.cons_eq_cons, ih]

theorem AllAt.and_iff {xs : List ι} :
    AllAt enc (fun s x => P s x ∧ Q s x) s xs ↔ AllAt enc P s xs ∧ AllAt enc Q s xs := by
  induction xs generalizing s with
  | nil => simp [AllAt]
  | cons x xs ih =>
    rw [AllAt, AllAt, AllAt, ih]
    tauto

section Map

variable {κ : Type x} {g : κ → ι} {xs : List κ} {s : σ}

theorem allAt_map {P : σ → ι → Prop} :
    AllAt enc P s (xs.map g) ↔ AllAt (fun x => enc (g x)) (fun s x => P s (g x)) s xs := by
  induction xs generalizing s with
  | nil => exact Iff.rfl
  | cons x xs ih => rw [List.map_cons, AllAt, AllAt, ih]

theorem mapAt_map {f : σ → ι → α} :
    mapAt enc f s (xs.map g) = mapAt (fun x => enc (g x)) (fun s x => f s (g x)) s xs := by
  induction xs generalizing s with
  | nil => rfl
  | cons x xs ih => rw [List.map_cons, mapAt, mapAt, ih]

end Map

/-- If a decoder that returns is right about the item, and what comes after the loop returns as
well, it does so behind all of the items. -/
theorem allAt_map_of_times {κ : Type x} {g : κ → ι} {xs : List κ} {k : List α → StateT σ Option γ}
    (hs : Holds s ((xs.map g).flatMap enc))
    (hP : ∀ s, ∀ x ∈ xs, Holds s (enc (g x)) → (p s).isSome → P s (g x))
    (hf : ∀ s, ∀ x ∈ xs, Holds s (enc (g x)) → P s (g x) →
      p s = some (f s (g x), advance s (enc (g x)).length))
    (h : ((times (xs.map g).length p >>= k) s).isSome) :
    AllAt enc P s (xs.map g) ∧
      (k (mapAt enc f s (xs.map g)) (advance s ((xs.map g).flatMap enc).length)).isSome := by
  have hf' : ∀ s, ∀ y ∈ xs.map g, Holds s (enc y) → P s y →
      p s = some (f s y, advance s (enc y).length) := fun s => List.forall_mem_map.mpr (hf s)
  obtain ⟨as, s', htimes, -⟩ := exists_of_isSome_bind h
  have hall := allAt_of_times hs (fun s => List.forall_mem_map.mpr (hP s)) hf'
    (Option.isSome_of_eq_some htimes)
  rw [run_bind_of_some (times_run (hall.imp hs hf'))] at h
  exact ⟨hall, h⟩

/-- The items are what the function finds in their images just if each of them is. -/
theorem allAt_map_and_mapAt_eq_iff {κ : Type u} {g : κ → ι} {xs : List κ} {f : σ → ι → κ}
    {K : σ → κ → Prop} (hs : Holds s ((xs.map g).flatMap enc))
    (h : ∀ s, ∀ x ∈ xs, Holds s (enc (g x)) → (P s (g x) ∧ f s (g x) = x ↔ K s x)) :
    AllAt enc P s (xs.map g) ∧ mapAt enc f s (xs.map g) = xs ↔
      AllAt (fun x => enc (g x)) K s xs := by
  rw [List.flatMap_map] at hs
  rw [mapAt_map, mapAt_eq_self_iff, allAt_map, ← AllAt.and_iff, AllAt.congr hs h]

theorem Decodes.times {f : ι → α} {xs : List ι} (h : ∀ x ∈ xs, Decodes p (enc x) (f x)) :
    Decodes (times xs.length p) (xs.flatMap enc) (xs.map f) := by
  induction xs with
  | nil => exact decodes_pure []
  | cons x xs ih =>
    have hrest := ih fun y hy => h y (List.mem_cons_of_mem x hy)
    exact (h x List.mem_cons_self).bind (hrest.bindPure fun as => f x :: as)

theorem map_mapAt {g : α → γ} {h : ι → γ} (hg : ∀ s x, g (f s x) = h x) (s : σ) (xs : List ι) :
    (mapAt enc f s xs).map g = xs.map h := by
  induction xs generalizing s with
  | nil => rfl
  | cons x xs ih => rw [mapAt, List.map_cons, List.map_cons, hg, ih]

end Items

end Decoding
