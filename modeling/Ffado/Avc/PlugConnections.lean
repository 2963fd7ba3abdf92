import Mathlib.Data.List.Nodup
import Mathlib.Logic.Function.Basic
import Mathlib.Tactic.SplitIfs

/-!
# Tidying the plug connections

`PlugManager::tidyPlugConnections` gathers the connections that stand in the input and output lists
of the plugs and writes them back to both ends. Plugs are compared by address.
-/

namespace Ffado.Avc.PlugConnections

variable {P : Type} [DecidableEq P]

/-- The connection lists of the plugs. -/
structure Lists (P : Type) where
  inputs : P → List P
  outputs : P → List P

def addConnection (connections : List (P × P)) (con : P × P) : List (P × P) :=
  if con ∈ connections then connections else connections ++ [con]

/-- The turn of the first loop for one plug. -/
def gather (s : List (P × P) × Lists P) (plug : P) : List (P × P) × Lists P :=
  let fromInputs := (s.2.inputs plug).foldl (fun cs src => addConnection cs (src, plug)) s.1
  let connections :=
    (s.2.outputs plug).foldl (fun cs dest => addConnection cs (plug, dest)) fromInputs
  (connections, ⟨Function.update s.2.inputs plug [], Function.update s.2.outputs plug []⟩)

/-- The turn of the second loop for one connection. -/
def distribute (l : Lists P) (con : P × P) : Lists P where
  outputs := Function.update l.outputs con.1 (l.outputs con.1 ++ [con.2])
  inputs := Function.update l.inputs con.2 (l.inputs con.2 ++ [con.1])

def tidyPlugConnections (plugs : List P) (l : Lists P) : List (P × P) × Lists P :=
  let (connections, l) := plugs.foldl gather ([], l)
  (connections, connections.foldl distribute l)

/-- One of the two ends names the other. -/
def Lists.Connected (l : Lists P) (a b : P) : Prop := b ∈ l.outputs a ∨ a ∈ l.inputs b

def Lists.Within (plugs : List P) (l : Lists P) : Prop :=
  ∀ a b, l.Connected a b → a ∈ plugs ∧ b ∈ plugs

theorem mem_addConnection {cs : List (P × P)} {con x : P × P} :
    x ∈ addConnection cs con ↔ x ∈ cs ∨ x = con := by
  unfold addConnection
  split_ifs with h
  · exact ⟨.inl, fun hx => hx.elim id (· ▸ h)⟩
  · simp

theorem nodup_addConnection {cs : List (P × P)} (con : P × P) (h : cs.Nodup) :
    (addConnection cs con).Nodup := by
  unfold addConnection
  split_ifs with hmem
  · exact h
  · simpa using h.concat hmem

theorem mem_foldl_addConnection (x : P × P) (pair : P → P × P) (l : List P) (cs : List (P × P)) :
    x ∈ l.foldl (fun cs p => addConnection cs (pair p)) cs ↔ x ∈ cs ∨ x ∈ l.map pair := by
  induction l generalizing cs with
  | nil => simp
  | cons p l ih => rw [List.foldl_cons, ih, mem_addConnection, List.map_cons,
      List.mem_cons, or_assoc]

theorem nodup_foldl_addConnection (pair : P → P × P) (l : List P) {cs : List (P × P)}
    (h : cs.Nodup) : (l.foldl (fun cs p => addConnection cs (pair p)) cs).Nodup := by
  induction l generalizing cs with
  | nil => exact h
  | cons p l ih => exact ih (nodup_addConnection _ h)

/-- What the first loop has gathered and cleared behind some of the plugs. -/
theorem foldl_gather (plugs : List P) (cs : List (P × P)) (l : Lists P) (hcs : cs.Nodup) :
    let r := plugs.foldl gather (cs, l)
    r.1.Nodup ∧
      (∀ a b, (a, b) ∈ r.1 ↔
        (a, b) ∈ cs ∨ b ∈ plugs ∧ a ∈ l.inputs b ∨ a ∈ plugs ∧ b ∈ l.outputs a) ∧
      (∀ p, r.2.inputs p = if p ∈ plugs then [] else l.inputs p) ∧
      ∀ p, r.2.outputs p = if p ∈ plugs then [] else l.outputs p := by
  induction plugs generalizing cs l with
  | nil => exact ⟨hcs, by simp, by simp, by simp⟩
  | cons plug plugs ih =>
    have hnodup : (gather (cs, l) plug).1.Nodup :=
      nodup_foldl_addConnection _ _ (nodup_foldl_addConnection _ _ hcs)
    have hmem : ∀ a b, (a, b) ∈ (gather (cs, l) plug).1 ↔
        ((a, b) ∈ cs ∨ b = plug ∧ a ∈ l.inputs plug) ∨ a = plug ∧ b ∈ l.outputs plug := by
      intro a b
      rw [gather, mem_foldl_addConnection, mem_foldl_addConnection]
      simp only [List.mem_map, Prod.mk.injEq]
      aesop
    obtain ⟨h1, h2, h3, h4⟩ := ih _ (gather (cs, l) plug).2 hnodup
    refine ⟨h1, fun a b => ?_, fun p => ?_, fun p => ?_⟩
    · rw [List.foldl_cons, h2, hmem]
      simp only [gather, Function.update_apply, List.mem_cons]
      by_cases ha : a = plug <;> by_cases hb : b = plug <;> simp [ha, hb] <;> tauto
    · rw [List.foldl_cons, h3]
      by_cases hp : p = plug <;> simp [gather, hp]
    · rw [List.foldl_cons, h4]
      by_cases hp : p = plug <;> simp [gather, hp]

theorem count_foldl_distribute (cs : List (P × P)) (l : Lists P) (a b : P) :
    ((cs.foldl distribute l).outputs a).count b = (l.outputs a).count b + cs.count (a, b) ∧
      ((cs.foldl distribute l).inputs b).count a = (l.inputs b).count a + cs.count (a, b) := by
  induction cs generalizing l with
  | nil => simp
  | cons con cs ih =>
    obtain ⟨src, dest⟩ := con
    rw [List.foldl_cons, (ih _).1, (ih _).2]
    simp only [distribute, Function.update_apply, List.count_cons, beq_iff_eq, Prod.mk.injEq]
    by_cases ha : a = src <;> by_cases hb : b = dest <;>
      simp [ha, hb, List.count_append, eq_comm]; omega

section Tidy

variable {plugs : List P} {l : Lists P} (h : l.Within plugs)
include h

theorem tidy_connections :
    (tidyPlugConnections plugs l).1.Nodup ∧
      ∀ a b, (a, b) ∈ (tidyPlugConnections plugs l).1 ↔ l.Connected a b := by
  obtain ⟨hnodup, hmem, -⟩ := foldl_gather plugs [] l List.nodup_nil
  refine ⟨hnodup, fun a b => (hmem a b).trans ?_⟩
  constructor
  · rintro (hnil | ⟨-, hin⟩ | ⟨-, hout⟩)
    · cases hnil
    · exact .inr hin
    · exact .inl hout
  · intro hab
    obtain ⟨ha, hb⟩ := h a b hab
    rcases hab with hout | hin
    · exact .inr (.inr ⟨ha, hout⟩)
    · exact .inr (.inl ⟨hb, hin⟩)

/-- The lists hold what the connection vector holds: those of the manager's plugs have been cleared,
and others are empty. -/
theorem tidy_lists (a b : P) :
    ((tidyPlugConnections plugs l).2.outputs a).count b =
        (tidyPlugConnections plugs l).1.count (a, b) ∧
      ((tidyPlugConnections plugs l).2.inputs b).count a =
        (tidyPlugConnections plugs l).1.count (a, b) := by
  obtain ⟨-, -, hin, hout⟩ := foldl_gather plugs [] l List.nodup_nil
  have hcounts := count_foldl_distribute (plugs.foldl gather ([], l)).1
    (plugs.foldl gather ([], l)).2 a b
  rw [hin, hout] at hcounts
  have houtputs : (if a ∈ plugs then [] else l.outputs a).count b = 0 := by
    split_ifs with ha
    · rfl
    · exact List.count_eq_zero.mpr fun hb => ha (h a b (.inl hb)).1
  have hinputs : (if b ∈ plugs then [] else l.inputs b).count a = 0 := by
    split_ifs with hb
    · rfl
    · exact List.count_eq_zero.mpr fun ha => hb (h a b (.inr ha)).2
  rw [houtputs, hinputs, Nat.zero_add] at hcounts
  exact hcounts

theorem tidy_mem_iff (a b : P) :
    (b ∈ (tidyPlugConnections plugs l).2.outputs a ↔ l.Connected a b) ∧
      (a ∈ (tidyPlugConnections plugs l).2.inputs b ↔ l.Connected a b) := by
  rw [← (tidy_connections h).2, ← List.count_pos_iff, ← List.count_pos_iff, ← List.count_pos_iff,
    (tidy_lists h a b).1, (tidy_lists h a b).2]
  exact ⟨Iff.rfl, Iff.rfl⟩

theorem tidy_connected_iff (a b : P) :
    (tidyPlugConnections plugs l).2.Connected a b ↔ l.Connected a b := by
  rw [Lists.Connected, (tidy_mem_iff h a b).1, (tidy_mem_iff h a b).2, or_self]

end Tidy

/-- Behind `tidyPlugConnections` each connection stands once in the vector and once in the list of
either end, and a second call changes nothing of that. -/
theorem tidyPlugConnections_symmetric (plugs : List P) (l : Lists P) (h : l.Within plugs) :
    let r := tidyPlugConnections plugs l
    (∀ a b, ((a, b) ∈ r.1 ↔ l.Connected a b) ∧ r.1.count (a, b) ≤ 1) ∧
    (∀ a b, (b ∈ r.2.outputs a ↔ a ∈ r.2.inputs b) ∧
      (r.2.outputs a).count b ≤ 1 ∧ (r.2.inputs b).count a ≤ 1) ∧
    ∀ a b, (tidyPlugConnections plugs r.2).2.Connected a b ↔ r.2.Connected a b := by
  have hcount : ∀ a b, (tidyPlugConnections plugs l).1.count (a, b) ≤ 1 := fun a b =>
    List.nodup_iff_count_le_one.mp (tidy_connections h).1 (a, b)
  have hwithin : (tidyPlugConnections plugs l).2.Within plugs := fun a b hab =>
    h a b ((tidy_connected_iff h a b).mp hab)
  refine ⟨fun a b => ⟨(tidy_connections h).2 a b, hcount a b⟩, fun a b => ?_, ?_⟩
  · rw [(tidy_lists h a b).1, (tidy_lists h a b).2, (tidy_mem_iff h a b).1, (tidy_mem_iff h a b).2]
    exact ⟨Iff.rfl, hcount a b, hcount a b⟩
  · exact tidy_connected_iff hwithin

/-- A duplicate, a connection that one end alone names, and a plug that is connected to itself. -/
def untidy : Lists Bool := ⟨fun _ => [], fun a => if a then [] else [true, true, false]⟩

theorem tidyPlugConnections_symmetric_untidy :
    (true ∈ (tidyPlugConnections [false, true] untidy).2.outputs false ↔
      false ∈ (tidyPlugConnections [false, true] untidy).2.inputs true) ∧
    ((tidyPlugConnections [false, true] untidy).2.outputs false).count true ≤ 1 ∧
    ((tidyPlugConnections [false, true] untidy).2.inputs true).count false ≤ 1 :=
  (tidyPlugConnections_symmetric [false, true] untidy
    (fun a b _ => by cases a <;> cases b <;> decide)).2.1 false true

end Ffado.Avc.PlugConnections
