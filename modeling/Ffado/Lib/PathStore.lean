import Mathlib.Tactic

/-!
# Stores with paths

A path is made of numbered elements and a name, with separators in between. Such paths can be told
apart if no name has a separator in it and no name of a numbered element ends in a digit. What has
been written below some path is described by keys, and a reader sees it through `Holds`. Lists are
written as numbered elements and are read by a loop that ends at the first element that is not
there.
-/
namespace PathStore

inductive Key
  | leaf (name : String)
  | dir (name : String) (index : ℕ) (rest : Key)
  deriving DecidableEq

/-- The path of a numbered element below `base`. -/
def element (base name : String) (i : ℕ) : String := base ++ name ++ toString i ++ "/"

def Key.render : Key → String
  | leaf name => name
  | dir name i rest => name ++ toString i ++ "/" ++ rest.render

def IsName (name : String) : Prop := '/' ∉ name.toList

instance (name : String) : Decidable (IsName name) := inferInstanceAs (Decidable (¬ _))

/-- A name that a number can follow. -/
def IsStem (name : String) : Prop :=
  IsName name ∧ ∀ c ∈ name.toList.getLast?, c.isDigit = false

instance (name : String) : Decidable (IsStem name) :=
  @instDecidableAnd _ _ _ (Option.decidableForallMem _)

def Key.WellFormed : Key → Prop
  | leaf name => IsName name
  | dir name _ rest => IsStem name ∧ rest.WellFormed

section Injective

variable {a a' r r' : List Char}

variable {name : String} {i : ℕ}

theorem append_separator_inj (ha : '/' ∉ a) (ha' : '/' ∉ a') (h : a ++ '/' :: r = a' ++ '/' :: r') :
    a = a' ∧ r = r' := by
  induction a generalizing a' with
  | nil =>
    cases a' with
    | nil => exact ⟨rfl, List.tail_eq_of_cons_eq h⟩
    | cons c a' =>
      have hc := List.head_eq_of_cons_eq h
      exact absurd (hc ▸ List.mem_cons_self) ha'
  | cons c a ih =>
    cases a' with
    | nil =>
      have hc := List.head_eq_of_cons_eq h
      exact absurd (hc ▸ List.mem_cons_self) ha
    | cons c' a' =>
      obtain ⟨rfl, htail⟩ := List.cons_eq_cons.mp h
      obtain ⟨rfl, hr⟩ := ih (fun hm => ha (List.mem_cons_of_mem _ hm))
        (fun hm => ha' (List.mem_cons_of_mem _ hm)) htail
      exact ⟨rfl, hr⟩

theorem isDigit_of_mem_toString {c : Char} (h : c ∈ (toString i).toList) :
    c.isDigit = true := by
  rw [Nat.toString_eq_repr, Nat.toList_repr] at h
  exact Nat.isDigit_of_mem_toDigits (by decide) (by decide) h

theorem toString_inj {i' : ℕ} (h : toString i = toString i') : i = i' := by
  have hdigits : Nat.toDigits 10 i = Nat.toDigits 10 i' := by
    rw [← Nat.toList_repr, ← Nat.toList_repr, ← Nat.toString_eq_repr, h, Nat.toString_eq_repr]
  calc i = Nat.ofDigitChars 10 (Nat.toDigits 10 i) 0 := Nat.ofDigitChars_ten_toDigits.symm
    _ = Nat.ofDigitChars 10 (Nat.toDigits 10 i') 0 := by rw [hdigits]
    _ = i' := Nat.ofDigitChars_ten_toDigits

theorem takeWhile_isDigit_stem (h : IsStem name) :
    name.toList.reverse.takeWhile Char.isDigit = [] := by
  cases hrev : name.toList.reverse with
  | nil => rfl
  | cons c cs =>
    have hlast : c ∈ name.toList.getLast? := by
      rw [← List.head?_reverse, hrev]
      rfl
    exact List.takeWhile_cons_of_neg (by simp [h.2 c hlast])

/-- The digits at the end of a numbered name are its number. -/
theorem takeWhile_isDigit_reverse (h : IsStem name) (i : ℕ) :
    (name ++ toString i).toList.reverse.takeWhile Char.isDigit = (toString i).toList.reverse := by
  rw [String.toList_append, List.reverse_append, List.takeWhile_append_of_pos]
  · rw [takeWhile_isDigit_stem h, List.append_nil]
  · intro c hc
    exact isDigit_of_mem_toString (List.mem_reverse.mp hc)

theorem numbered_inj {name' : String} {i' : ℕ} (h : IsStem name) (h' : IsStem name')
    (heq : name ++ toString i = name' ++ toString i') : name = name' ∧ i = i' := by
  have hdigits := takeWhile_isDigit_reverse h i
  rw [heq, takeWhile_isDigit_reverse h' i', List.reverse_inj] at hdigits
  have hi : toString i = toString i' := String.ext hdigits.symm
  rw [hi] at heq
  refine ⟨String.ext ?_, toString_inj hi⟩
  have hlist := congrArg String.toList heq
  rw [String.toList_append, String.toList_append] at hlist
  exact List.append_cancel_right hlist

theorem separator_notMem (h : IsName name) (i : ℕ) :
    '/' ∉ (name ++ toString i).toList := by
  rw [String.toList_append, List.mem_append, not_or]
  refine ⟨h, fun hmem => ?_⟩
  have hdigit := isDigit_of_mem_toString hmem
  exact absurd hdigit (by decide)

theorem Key.toList_render_dir (name : String) (i : ℕ) (rest : Key) :
    (Key.dir name i rest).render.toList =
      (name ++ toString i).toList ++ '/' :: rest.render.toList := by
  rw [render, String.toList_append, String.toList_append, List.append_assoc]
  rfl

theorem Key.render_injective {k k' : Key} (hk : k.WellFormed) (hk' : k'.WellFormed)
    (h : k.render = k'.render) : k = k' := by
  induction k generalizing k' with
  | leaf name =>
    cases k' with
    | leaf name' => exact congrArg Key.leaf h
    | dir name' i' rest' =>
      -- there is a separator on one side only
      refine absurd ?_ hk
      change '/' ∈ (Key.leaf name).render.toList
      rw [h, toList_render_dir]
      exact List.mem_append_right _ List.mem_cons_self
  | dir name i rest ih =>
    cases k' with
    | leaf name' =>
      refine absurd ?_ hk'
      change '/' ∈ (Key.leaf name').render.toList
      rw [← h, toList_render_dir]
      exact List.mem_append_right _ List.mem_cons_self
    | dir name' i' rest' =>
      have hlist := congrArg String.toList h
      rw [toList_render_dir, toList_render_dir] at hlist
      obtain ⟨hname, hrest⟩ := append_separator_inj (separator_notMem hk.1.1 i)
        (separator_notMem hk'.1.1 i') hlist
      obtain ⟨rfl, rfl⟩ := numbered_inj hk.1 hk'.1 (String.ext hname)
      rw [ih hk.2 hk'.2 (String.ext hrest)]

end Injective

section Entries

variable {κ κ' β α : Type*} [DecidableEq κ] [DecidableEq κ']

/-- The last value that was written. -/
def lookup : List (κ × β) → κ → Option β
  | [], _ => none
  | (k', v) :: es, k => (lookup es k).or (if k' = k then some v else none)

@[simp] theorem lookup_nil (k : κ) : lookup ([] : List (κ × β)) k = none := rfl

@[simp] theorem lookup_cons (k' : κ) (v : β) (es : List (κ × β)) (k : κ) :
    lookup ((k', v) :: es) k = (lookup es k).or (if k' = k then some v else none) := rfl

@[simp] theorem lookup_append (es es' : List (κ × β)) (k : κ) :
    lookup (es ++ es') k = (lookup es' k).or (lookup es k) := by
  induction es with
  | nil => simp
  | cons e es ih => rw [List.cons_append, lookup_cons, ih, lookup_cons, Option.or_assoc]

/-- A change of the keys that keeps them apart. -/
theorem lookup_map {f : κ → κ'} {es : List (κ × β)} {k : κ}
    (hf : ∀ e ∈ es, f e.1 = f k → e.1 = k) :
    lookup (es.map (Prod.map f id)) (f k) = lookup es k := by
  induction es with
  | nil => rfl
  | cons e es ih =>
    rw [List.forall_mem_cons] at hf
    rw [List.map_cons, Prod.map, lookup_cons, ih hf.2, lookup_cons]
    by_cases he : e.1 = k
    · rw [if_pos (congrArg f he), if_pos he]
      rfl
    · rw [if_neg (mt hf.1 he), if_neg he]

theorem lookup_eq_none {es : List (κ × β)} {k : κ} (h : ∀ e ∈ es, e.1 ≠ k) :
    lookup es k = none := by
  induction es with
  | nil => rfl
  | cons e es ih =>
    rw [List.forall_mem_cons] at h
    rw [lookup_cons, ih h.2, if_neg h.1]
    rfl

def inElement (name : String) (i : ℕ) (es : List (Key × β)) : List (Key × β) :=
  es.map (Prod.map (Key.dir name i) id)

def numbered (name : String) (entries : α → List (Key × β)) : ℕ → List α → List (Key × β)
  | _, [] => []
  | i, x :: xs => inElement name i (entries x) ++ numbered name entries (i + 1) xs

variable {name name' : String} {entries : α → List (Key × β)} {xs : List α} {i j : ℕ} {k : Key}

@[simp] theorem lookup_numbered_leaf (i : ℕ) (xs : List α) (leaf : String) :
    lookup (numbered name entries i xs) (.leaf leaf) = none := by
  induction xs generalizing i with
  | nil => rfl
  | cons x xs ih =>
    rw [numbered, lookup_append, ih, Option.none_or]
    apply lookup_eq_none
    intro e he
    obtain ⟨e', -, rfl⟩ := List.mem_map.mp he
    exact Key.noConfusion

theorem lookup_inElement_self (es : List (Key × β)) :
    lookup (inElement name i es) (.dir name i k) = lookup es k :=
  lookup_map fun _ _ h => (Key.dir.inj h).2.2

theorem lookup_inElement_of_ne (h : name ≠ name' ∨ i ≠ j) (es : List (Key × β)) :
    lookup (inElement name i es) (.dir name' j k) = none := by
  apply lookup_eq_none
  intro e he heq
  obtain ⟨e', -, rfl⟩ := List.mem_map.mp he
  obtain ⟨hname, hi, -⟩ := Key.dir.inj heq
  exact h.elim (fun hn => hn hname) (fun hn => hn hi)

theorem lookup_numbered_of_ne (h : name ≠ name') (i : ℕ) (xs : List α) :
    lookup (numbered name entries i xs) (.dir name' j k) = none := by
  induction xs generalizing i with
  | nil => rfl
  | cons x xs ih =>
    rw [numbered, lookup_append, ih, lookup_inElement_of_ne (.inl h)]
    rfl

theorem lookup_numbered_of_lt (h : j < i) (xs : List α) :
    lookup (numbered name entries i xs) (.dir name' j k) = none := by
  induction xs generalizing i with
  | nil => rfl
  | cons x xs ih =>
    rw [numbered, lookup_append, ih (by omega), lookup_inElement_of_ne (.inr (by omega))]
    rfl

theorem lookup_numbered_add (i j : ℕ) (xs : List α) :
    lookup (numbered name entries i xs) (.dir name (i + j) k) =
      xs[j]?.bind fun x => lookup (entries x) k := by
  induction xs generalizing i j with
  | nil => rfl
  | cons x xs ih =>
    rw [numbered, lookup_append]
    cases j with
    | zero =>
      rw [lookup_numbered_of_lt (by omega), Nat.add_zero, lookup_inElement_self]
      rfl
    | succ j =>
      rw [lookup_inElement_of_ne (.inr (by omega)), Option.or_none, ← Nat.add_assoc,
        Nat.add_right_comm, ih, List.getElem?_cons_succ]

/-- What is found below an element of a list. -/
@[simp] theorem lookup_numbered (xs : List α) : lookup (numbered name entries 0 xs)
    (.dir name' j k) = if name = name' then xs[j]?.bind fun x =>
      lookup (entries x) k else none := by
  split_ifs with h
  · subst h
    have hadd := @lookup_numbered_add _ _ name entries k 0 j xs
    rwa [Nat.zero_add] at hadd
  · exact lookup_numbered_of_ne h 0 xs

def AllWellFormed (es : List (Key × β)) : Prop := ∀ e ∈ es, e.1.WellFormed

theorem allWellFormed_nil : AllWellFormed ([] : List (Key × β)) := nofun

theorem allWellFormed_leaf {v : β} {es : List (Key × β)} :
    AllWellFormed ((.leaf name, v) :: es) ↔ IsName name ∧ AllWellFormed es :=
  List.forall_mem_cons

theorem allWellFormed_append {es es' : List (Key × β)} :
    AllWellFormed (es ++ es') ↔ AllWellFormed es ∧ AllWellFormed es' :=
  List.forall_mem_append

theorem allWellFormed_numbered (hname : IsStem name) (h : ∀ x ∈ xs, AllWellFormed (entries x)) :
    AllWellFormed (numbered name entries i xs) := by
  induction xs generalizing i with
  | nil =>
    intro e he
    cases he
  | cons x xs ih =>
    refine allWellFormed_append.mpr ⟨?_, ?_⟩
    · intro e he
      obtain ⟨e', he', rfl⟩ := List.mem_map.mp he
      exact ⟨hname, h x List.mem_cons_self e' he'⟩
    · exact ih fun y hy => h y (List.mem_cons_of_mem x hy)

end Entries

section Store

variable {β : Type*} {s : List (String × β)} {base : String} {f : Key → Option β}

variable {name : String}

/-- The entries with their paths. -/
def write (base : String) (es : List (Key × β)) : List (String × β) :=
  es.map (Prod.map (fun k => base ++ k.render) id)

/-- Below `base` the store has the values that `f` gives. -/
def Holds (s : List (String × β)) (base : String) (f : Key → Option β) : Prop :=
  ∀ k : Key, k.WellFormed → lookup s (base ++ k.render) = f k

theorem append_left_cancel {a b c : String} (h : a ++ b = a ++ c) : b = c := by
  have hlist := congrArg String.toList h
  rw [String.toList_append, String.toList_append] at hlist
  exact String.ext (List.append_cancel_left hlist)

theorem holds_write {es : List (Key × β)} (h : AllWellFormed es) :
    Holds (write base es) base (lookup es) := by
  intro k hk
  apply lookup_map (f := fun k : Key => base ++ k.render)
  intro e he heq
  exact Key.render_injective (h e he) hk (append_left_cancel heq)

theorem Holds.leaf (h : Holds s base f) (hname : IsName name) :
    lookup s (base ++ name) = f (.leaf name) :=
  h (.leaf name) hname

theorem Holds.element (h : Holds s base f) (hname : IsStem name) (i : ℕ) :
    Holds s (element base name i) fun k => f (.dir name i k) := by
  intro k hk
  have hdir := h (.dir name i k) ⟨hname, hk⟩
  rw [Key.render] at hdir
  dsimp only
  rw [← hdir, PathStore.element]
  simp only [String.append_assoc]

end Store

inductive Item (α : Type*)
  | absent
  | failed
  | found (a : α)

section Collect

variable {α : Type*} {item : ℕ → Option (Item α)} {xs : List α} {i fuel : ℕ}

/-- Elements are read until one is absent or cannot be read; `true` in the first case. `none` if the
loop, or the reading of an element, has not ended. -/
def collect (item : ℕ → Option (Item α)) : ℕ → ℕ → Option (List α × Bool)
  | 0, _ => none
  | fuel + 1, i =>
    match item i with
    | none => none
    | some .absent => some ([], true)
    | some .failed => some ([], false)
    | some (.found a) => (collect item fuel (i + 1)).map fun rest => (a :: rest.1, rest.2)

theorem collect_from
    (hfound : ∀ j (hj : j < xs.length), item (i + j) = some (.found (xs.get ⟨j, hj⟩)))
    (habsent : item (i + xs.length) = some .absent) (hfuel : xs.length < fuel) :
    collect item fuel i = some (xs, true) := by
  induction xs generalizing i fuel with
  | nil =>
    obtain ⟨fuel, rfl⟩ := Nat.exists_eq_succ_of_ne_zero (by omega : fuel ≠ 0)
    rw [collect, show item i = some .absent from habsent]
  | cons x xs ih =>
    rw [List.length_cons] at hfuel
    obtain ⟨fuel, rfl⟩ := Nat.exists_eq_succ_of_ne_zero (by omega : fuel ≠ 0)
    have hrest := @ih (i + 1) fuel
      (fun j hj => by
        have hj' := hfound (j + 1) (by rw [List.length_cons]; omega)
        rwa [Nat.add_right_comm, Nat.add_assoc])
      (by rwa [Nat.add_right_comm, Nat.add_assoc]) (by omega)
    rw [collect, show item i = some (.found x) from hfound 0 (Nat.succ_pos _)]
    dsimp only
    rw [hrest]
    rfl

theorem collect_eq (hfound : ∀ j (hj : j < xs.length), item j = some (.found (xs.get ⟨j, hj⟩)))
    (habsent : item xs.length = some .absent) (hfuel : xs.length < fuel) :
    collect item fuel 0 = some (xs, true) := by
  apply collect_from _ _ hfuel
  · intro j hj
    rw [Nat.zero_add]
    exact hfound j hj
  · rwa [Nat.zero_add]

theorem collect_numbered {β γ : Type*} {s : List (String × β)} {base name : String}
    {f : Key → Option β} {entries : γ → List (Key × β)} {ys : List γ} (g : γ → α)
    (hs : Holds s base f) (hname : IsStem name)
    (hf : ∀ i k, f (.dir name i k) = ys[i]?.bind fun y => lookup (entries y) k)
    (hfound : ∀ i, ∀ y ∈ ys, Holds s (element base name i) (lookup (entries y)) →
      item i = some (.found (g y)))
    (habsent : ∀ i, Holds s (element base name i) (fun _ => none) → item i = some .absent)
    (hfuel : ys.length < fuel) : collect item fuel 0 = some (ys.map g, true) := by
  apply collect_eq
  · intro j hj
    rw [List.length_map] at hj
    have hholds := hs.element hname j
    simp only [hf, List.getElem?_eq_getElem hj, Option.bind_some] at hholds
    rw [hfound j _ (List.getElem_mem hj) hholds]
    simp
  · rw [List.length_map]
    have hholds := hs.element hname ys.length
    simp only [hf, List.getElem?_length, Option.bind_none] at hholds
    exact habsent _ hholds
  · rwa [List.length_map]

end Collect

end PathStore
