import Mathlib.Logic.Function.Basic
import Mathlib.Order.Basic
import Mathlib.Order.Nat
import Mathlib.Tactic.Common

/-!
# A heap of objects

Objects have addresses and hold the addresses of their parts; a new object is put behind all others.
What is read of an object is `Owned` if it is the same in every memory that agrees on the objects
from a given address on: no change to the objects in front of them can be seen in it.
-/
namespace ObjectHeap

variable {ω β γ : Type}

structure Heap (ω : Type) where
  cells : ℕ → Option ω
  next : ℕ
  fresh : ∀ a, next ≤ a → cells a = none

/-- Programs that look at objects and make new ones; `none` is undefined behaviour. -/
abbrev Alloc (ω : Type) := StateT (Heap ω) Option

namespace Heap

variable (h : Heap ω)

def push (c : ω) : Heap ω where
  cells := Function.update h.cells h.next (some c)
  next := h.next + 1
  fresh := by
    intro a ha
    rw [Function.update_of_ne (by omega)]
    exact h.fresh a (by omega)

/-- An object that is there gets new contents. -/
def set (p : ℕ) (c : ω) (hp : p < h.next) : Heap ω where
  cells := Function.update h.cells p (some c)
  next := h.next
  fresh := by
    intro a ha
    rw [Function.update_of_ne (by omega)]
    exact h.fresh a ha

variable {h}

theorem lt_next {a : ℕ} {c : ω} (hc : h.cells a = some c) : a < h.next := by
  by_contra hge
  rw [h.fresh a (by omega)] at hc
  cases hc

/-- Nothing that was there has changed. -/
structure Le (h h' : Heap ω) : Prop where
  next_le : h.next ≤ h'.next
  cells_eq : ∀ a < h.next, h'.cells a = h.cells a

theorem Le.refl (h : Heap ω) : Le h h := ⟨le_rfl, fun _ _ => rfl⟩

theorem Le.trans {h₁ h₂ h₃ : Heap ω} (h₁₂ : Le h₁ h₂) (h₂₃ : Le h₂ h₃) : Le h₁ h₃ where
  next_le := h₁₂.next_le.trans h₂₃.next_le
  cells_eq a ha := (h₂₃.cells_eq a (ha.trans_le h₁₂.next_le)).trans (h₁₂.cells_eq a ha)

theorem le_push (h : Heap ω) (c : ω) : Le h (h.push c) where
  next_le := Nat.le_succ h.next
  cells_eq _ ha := Function.update_of_ne ha.ne _ _

theorem Le.push {h h' : Heap ω} (hle : Le h h') (c : ω) : Le h (h'.push c) :=
  hle.trans (le_push h' c)

/-- A change behind what was there. -/
theorem Le.set {h h' : Heap ω} (hle : Le h h') {p : ℕ} (hp : h.next ≤ p) (c : ω)
    (hlt : p < h'.next) : Le h (h'.set p c hlt) where
  next_le := hle.next_le
  cells_eq a ha := (Function.update_of_ne (by omega) _ _).trans (hle.cells_eq a ha)

theorem Le.cells_eq_some {h h' : Heap ω} (hle : Le h h') {a : ℕ} {c : ω} (hc : h.cells a = some c) :
    h'.cells a = some c :=
  (hle.cells_eq a (lt_next hc)).trans hc

theorem push_cells_next (h : Heap ω) (c : ω) : (h.push c).cells h.next = some c := by
  simp [push]

theorem set_cells_self (h : Heap ω) {p : ℕ} (c : ω) (hlt : p < h.next) :
    (h.set p c hlt).cells p = some c := by
  simp [set]

end Heap

def deref (p : ℕ) : Alloc ω ω := fun h => (h.cells p).map fun c => (c, h)

def new (c : ω) : Alloc ω ℕ := fun h => some (h.next, h.push c)

def assign (p : ℕ) (c : ω) : Alloc ω Unit := fun h =>
  if hp : p < h.next then some ((), h.set p c hp) else none

theorem deref_bind {α : Type} {p : ℕ} {c : ω} {h : Heap ω} (hc : h.cells p = some c)
    (f : ω → Alloc ω α) : (deref p >>= f) h = f c h := by
  change (deref p h).bind _ = _
  rw [deref, hc]
  rfl

theorem new_bind {α : Type} (c : ω) (f : ℕ → Alloc ω α) (h : Heap ω) :
    (new c >>= f) h = f h.next (h.push c) := rfl

/-- The object itself and the objects it leads to. -/
inductive IsPart (pointers : ω → List ℕ) (m : ℕ → Option ω) : ℕ → ℕ → Prop
  | self {p : ℕ} {c : ω} (hc : m p = some c) : IsPart pointers m p p
  | step {p q a : ℕ} {c : ω} (hc : m p = some c) (hq : q ∈ pointers c)
      (ha : IsPart pointers m q a) : IsPart pointers m p a

theorem IsPart.lt_next {pointers : ω → List ℕ} {h : Heap ω} {p a : ℕ}
    (ha : IsPart pointers h.cells p a) : a < h.next := by
  induction ha with
  | self hc => exact Heap.lt_next hc
  | step _ _ _ ih => exact ih

def Owned (read : (ℕ → Option ω) → β) (n : ℕ) (h : Heap ω) (b : β) : Prop :=
  ∀ m : ℕ → Option ω, (∀ a, n ≤ a → a < h.next → m a = h.cells a) → read m = b

namespace Owned

variable {read : (ℕ → Option ω) → β} {n : ℕ} {h h' : Heap ω} {b : β}

theorem read_eq (ho : Owned read n h b) : read h.cells = b := ho h.cells fun _ _ _ => rfl

theorem le (ho : Owned read n h b) {n' : ℕ} (hn : n' ≤ n) (hle : h.Le h') : Owned read n' h' b := by
  intro m hm
  apply ho
  intro a hna ha
  rw [hm a (hn.trans hna) (ha.trans_le hle.next_le), hle.cells_eq a ha]

theorem hold (ho : Owned read n h b) {n' p : ℕ} (hn : n' ≤ n) (hp : n' ≤ p) {c : ω}
    (hc : h.cells p = some c) {read' : (ℕ → Option ω) → γ} {b' : γ}
    (hread : ∀ m, m p = some c → read m = b → read' m = b') : Owned read' n' h b' := by
  intro m hm
  apply hread
  · rw [hm p hp (Heap.lt_next hc), hc]
  · exact ho m fun a hna ha => hm a (hn.trans hna) ha

theorem push (ho : Owned read n h b) (hn : n ≤ h.next) {c : ω} {read' : (ℕ → Option ω) → γ} {b' : γ}
    (hread : ∀ m, m h.next = some c → read m = b → read' m = b') : Owned read' n (h.push c) b' :=
  (ho.le le_rfl (h.le_push c)).hold le_rfl hn (h.push_cells_next c) hread

/-- A change in front of the objects that are read. -/
theorem set (ho : Owned read n h b) {p : ℕ} (hp : p < n) (c : ω) (hlt : p < h.next) :
    Owned read n (h.set p c hlt) b := by
  intro m hm
  apply ho
  intro a hna ha
  rw [hm a hna ha]
  exact Function.update_of_ne (by omega) _ _

/-- A new object without parts. -/
theorem leaf (hn : n ≤ h.next) {c : ω} (hread : ∀ m, m h.next = some c → read m = b) :
    Owned read n (h.push c) b := by
  intro m hm
  apply hread
  rw [hm h.next hn (Nat.lt_succ_self _), h.push_cells_next]

end Owned

/-- What the program makes is read as `b`, whatever is done to the objects that were there
before. -/
def Makes {α : Type} (make : Alloc ω α) (h : Heap ω) (read : (ℕ → Option ω) → α → β)
    (b : β) : Prop :=
  ∃ a h', make h = some (a, h') ∧ h.Le h' ∧ Owned (fun m => read m a) h.next h' b

section Makes

variable {α : Type} {make : Alloc ω α} {h : Heap ω} {read : (ℕ → Option ω) → α → β} {b : β}
  {read' : (ℕ → Option ω) → ℕ → γ} {b' : γ}

theorem makes_new {c : ω} (hread : ∀ m p, m p = some c → read' m p = b') :
    Makes (new c) h read' b' :=
  ⟨h.next, h.push c, rfl, h.le_push c, Owned.leaf le_rfl fun m => hread m h.next⟩

/-- An object that holds what has been made. -/
theorem Makes.bind_new (hm : Makes make h read b) {c : α → ω}
    (hread : ∀ m a p, m p = some (c a) → read m a = b → read' m p = b') :
    Makes (make >>= fun a => new (c a)) h read' b' := by
  obtain ⟨a, h', hmake, hle, howned⟩ := hm
  refine ⟨h'.next, h'.push (c a), ?_, hle.push _, howned.push hle.next_le fun m =>
    hread m a h'.next⟩
  change (make h).bind _ = _
  rw [hmake]
  rfl

theorem Makes.congr {make' : Alloc ω α} (hm : Makes make h read b) (heq : make' h = make h) :
    Makes make' h read b := by
  rwa [Makes, heq]

end Makes

end ObjectHeap
