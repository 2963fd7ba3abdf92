import Ffado.Lib.LabelledRun
import Ffado.Lib.PathStore

/-!
# Names of the ports

A port registers itself with its manager in its constructor and leaves it in its destructor. On the
way in, `makeNameUnique` numbers the name until no registered port has it.
-/
namespace Ffado.PortManager

open LabelledRun

structure Port where
  address : ℕ
  name : String

variable {ports ports' : List Port} {taken : List String} {orig : String} {left : ℕ}

/-- The loop of `makeNameUnique`, with `left` values of `idx` before 10000: the last name of the
port, and whether it is unique. -/
def uniqueName (taken : List String) (orig : String) : ℕ → String → String × Bool
  | 0, name => (name, false)
  | left + 1, name =>
    if name ∈ taken then uniqueName taken orig left (orig ++ toString (10000 - (left + 1)))
    else (name, true)

def makeNameUnique (ports : List Port) (port : Port) : Port × Bool :=
  let result := uniqueName (ports.map Port.name) port.name 10000 port.name
  ({ port with name := result.1 }, result.2)

def registerPort (ports : List Port) (port : Port) : List Port × Bool :=
  let result := makeNameUnique ports port
  if result.2 then (ports ++ [result.1], true) else (ports, false)

def unregisterPort (ports : List Port) (address : ℕ) : List Port × Bool :=
  (ports.eraseP (·.address = address), ports.any (·.address = address))

inductive Event
  | construct (port : Port)
  | destruct (address : ℕ)

def step (ports : List Port) : Event → Option (List Port)
  | .construct port => some (registerPort ports port).1
  | .destruct address => some (unregisterPort ports address).1

/-- The names that are tried, in order. -/
def candidate (orig : String) : ℕ → String
  | 0 => orig
  | i + 1 => orig ++ toString i

theorem candidate_injective (orig : String) : Function.Injective (candidate orig) := by
  have hne : ∀ i : ℕ, orig ++ toString i ≠ orig := by
    intro i heq
    have hlen := congrArg String.length heq
    rw [String.length_append, Nat.add_eq_left, String.length_eq_zero_iff] at hlen
    exact Nat.toDigits_ne_nil (by rw [← Nat.toList_repr, ← Nat.toString_eq_repr, hlen]; rfl)
  intro i j heq
  rcases i with _ | i <;> rcases j with _ | j
  · rfl
  · exact absurd heq.symm (hne j)
  · exact absurd heq (hne i)
  · exact congrArg (· + 1) (PathStore.toString_inj (String.append_right_inj orig |>.mp heq))

/-- The loop ends at the first free candidate, of those that are left, or at 10000. -/
theorem uniqueName_spec (hleft : left ≤ 10000) :
    ∃ k, (k < 10000 → candidate orig k ∉ taken) ∧
      (∀ i < k, 10000 - left ≤ i → candidate orig i ∈ taken) ∧
      uniqueName taken orig left (candidate orig (10000 - left)) =
        (candidate orig k, decide (k < 10000)) := by
  induction left with
  | zero => exact ⟨10000, by omega, by omega, rfl⟩
  | succ left ih =>
    obtain ⟨k, hfree, htaken, heq⟩ := ih (by omega)
    rw [show 10000 - left = 10000 - (left + 1) + 1 by omega] at htaken heq
    rw [uniqueName]
    split_ifs with hmem
    · refine ⟨k, hfree, fun i hi hle => ?_, heq⟩
      rcases hle.eq_or_lt with rfl | hlt
      · exact hmem
      · exact htaken i hi hlt
    · exact ⟨_, fun _ => hmem, by omega, by rw [decide_eq_true (by omega)]⟩

/-- A port is registered under the first free candidate. Only a manager of at least 10000 ports
refuses one. -/
theorem registerPort_spec (ports : List Port) (port : Port) :
    (∃ k < 10000, candidate port.name k ∉ ports.map Port.name ∧
      (∀ i < k, candidate port.name i ∈ ports.map Port.name) ∧
      registerPort ports port = (ports ++ [{ port with name := candidate port.name k }], true)) ∨
    10000 ≤ ports.length ∧ registerPort ports port = (ports, false) := by
  obtain ⟨k, hfree, htaken, heq⟩ := @uniqueName_spec (ports.map Port.name) port.name 10000 le_rfl
  change uniqueName _ _ _ port.name = _ at heq
  by_cases hk : k < 10000
  · exact .inl ⟨k, hk, hfree hk, fun i hi => htaken i hi (by omega), by
      simp [registerPort, makeNameUnique, heq, hk]⟩
  · refine .inr ⟨?_, by simp [registerPort, makeNameUnique, heq, hk]⟩
    have hsub : (List.range 10000).map (candidate port.name) ⊆ ports.map Port.name := by
      intro name hname
      obtain ⟨i, hi, rfl⟩ := List.mem_map.mp hname
      exact htaken i ((List.mem_range.mp hi).trans_le (by omega)) (by omega)
    have hnodup : ((List.range 10000).map (candidate port.name)).Nodup :=
      List.nodup_range.map (candidate_injective port.name)
    simpa using (hnodup.subperm hsub).length_le

theorem nodup_step {e : Event} (h : (ports.map Port.name).Nodup)
    (hstep : step ports e = some ports') : (ports'.map Port.name).Nodup := by
  cases e with
  | construct port =>
    obtain rfl := Option.some.inj hstep
    rcases registerPort_spec ports port with ⟨k, -, hfree, -, heq⟩ | ⟨-, heq⟩
    · rw [heq, List.map_append]
      exact h.append (List.nodup_singleton _) (by simpa using hfree)
    · rwa [heq]
  | destruct address =>
    obtain rfl := Option.some.inj hstep
    exact h.sublist (List.eraseP_sublist.map _)

/-- After any constructions and destructions of ports, no two registered ports have the same name,
and where fewer than 10000 are registered the next one gets the first free candidate. -/
theorem names_distinct {es : List Event} (hrun : Run (Guarded Always step) [] es ports) :
    (ports.map Port.name).Nodup ∧
      ∀ port, ports.length < 10000 → ∃ k < 10000, candidate port.name k ∉ ports.map Port.name ∧
        (∀ i < k, candidate port.name i ∈ ports.map Port.name) ∧
        registerPort ports port =
          (ports ++ [{ port with name := candidate port.name k }], true) := by
  refine ⟨hrun.invariant (fun ports => (ports.map Port.name).Nodup)
    (fun _ _ _ h hstep => nodup_step h hstep.2) List.nodup_nil, fun port hlt => ?_⟩
  rcases registerPort_spec ports port with h | ⟨hfull, -⟩
  · exact h
  · omega

/-- Three ports of one name, of which the second goes before the third comes. -/
theorem names_distinct_reused : ∃ ports : List Port, ports.map Port.name = ["out", "out0"] ∧
    (ports.map Port.name).Nodup := by
  have hrun : ([.construct ⟨1, "out"⟩, .construct ⟨2, "out"⟩, .destruct 2,
      .construct ⟨3, "out"⟩].foldlM step []).map
        (fun ports => decide (ports.map Port.name = ["out", "out0"])) = some true := by
    decide +kernel
  obtain ⟨ports, hrun, hnames⟩ := exists_run_of_foldlM _ hrun
  exact ⟨ports, of_decide_eq_true hnames, (names_distinct hrun).1⟩

end Ffado.PortManager
