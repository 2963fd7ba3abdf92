import Ffado.Lib.CircularMemory

/-!
# Loading a descriptor

`AVCDescriptor::load` opens a descriptor, reads the length that stands in its first two bytes, and
then reads as many bytes behind it, in as many pieces as the device makes of them. The bytes are
handed to the parser of the descriptor's class, which works on the contents that are there already.
Addresses are 16 bit wide, and a piece may be empty while the device tells that more follows.

The positions at which the reads of a load begin are the sums of what was offered before
(`Replies.position`), so that what a load does can be said of the replies alone.
-/
namespace Ffado.Avc.DescriptorLoad

open CircularMemory

structure Device where
  memory : ℕ → UInt8

/-- The length that is announced in the first two bytes. -/
def Device.length (dev : Device) : ℕ := (dev.memory 0).toNat * 256 + (dev.memory 1).toNat

theorem Device.length_lt (dev : Device) : dev.length < 2 ^ 16 := by
  have h0 := (dev.memory 0).toNat_lt
  have h1 := (dev.memory 1).toNat_lt
  rw [Device.length]
  omega

inductive ReadStatus
  | complete
  | moreToRead
  | tooLarge
  | invalid
  deriving DecidableEq

/-- The answer to a read: whether it is accepted, how many bytes the device is ready to give, and
the status if it gives none. -/
structure Answer where
  accepted : Bool
  offered : ℕ
  emptyStatus : ReadStatus
  deriving DecidableEq

/-- The answers in the course of one load. -/
structure Replies where
  openAccepted : Bool
  lengthField : Answer
  reads : ℕ → Answer
  closeAccepted : Bool

/-- The status of a piece tells whether more follows behind it. -/
def Device.status (dev : Device) (answer : Answer) (address given : ℕ) : ReadStatus :=
  if given = 0 then answer.emptyStatus
  else if address + given < 2 + dev.length then .moreToRead
  else .complete

structure Descriptor (σ : Type) where
  contents : σ
  loaded : Bool

/-- The parser of a class: the new contents and the result. `none` means that it has no result. -/
abbrev Parse (σ : Type) := σ → List UInt8 → Option (σ × Bool)

variable {σ : Type} (dev : Device) (r : Replies) (parse : Parse σ)

/-- The read loop. `none` means that it has not ended yet, `none` inside that it has failed. -/
def readLoop : ℕ → ℕ → ℕ → List UInt8 → Option (Option (List UInt8))
  | 0, _, _, _ => none
  | fuel + 1, k, bytesRead, data =>
    if bytesRead < dev.length then
      let address := (bytesRead + 2) % 2 ^ 16
      if ¬ (r.reads k).accepted then some none
      else
        let given := min (r.reads k).offered (dev.length - bytesRead)
        let dataLength := if bytesRead + given > dev.length then dev.length - bytesRead else given
        if dev.status (r.reads k) address given ≠ .moreToRead ∧
            bytesRead + dataLength < dev.length then some none
        else
          readLoop fuel (k + 1) (bytesRead + dataLength)
            (data ++ slice dev.memory address dataLength)
    else some (some data)

/-- What a load returns, `none` if the parser has no result, what it has handed to the parser, and
the object behind it. -/
structure Outcome (σ : Type) where
  result : Option Bool
  handed : Option (List UInt8)
  object : Descriptor σ

/-- A load that ends before the parser. -/
def Outcome.failed (d : Descriptor σ) : Outcome σ := ⟨some false, none, d⟩

def finish (d : Descriptor σ) (data : List UInt8) : Outcome σ :=
  match parse d.contents data with
  | none => ⟨none, some data, d⟩
  | some (contents, false) => ⟨some false, some data, { d with contents }⟩
  | some (contents, true) => ⟨some true, some data, ⟨contents, true⟩⟩

/-- What follows the loop. -/
def closeAndParse (d : Descriptor σ) : Option (List UInt8) → Outcome σ
  | none => .failed d
  | some data => if ¬ r.closeAccepted then .failed d else finish parse d data

/-- `none` means that the load has not ended yet. -/
def load (fuel : ℕ) (d : Descriptor σ) : Option (Outcome σ) :=
  if d.loaded then some ⟨some true, none, d⟩
  else if ¬ r.openAccepted then some (.failed d)
  else if ¬ r.lengthField.accepted then some (.failed d)
  else if min r.lengthField.offered 2 < 2 then some (.failed d)
  else
    (readLoop dev r fuel 0 0 []).map (closeAndParse r parse d)

def reload (fuel : ℕ) (d : Descriptor σ) : Option (Outcome σ) :=
  load dev r parse fuel { d with loaded := false }

/-- The loop is left with a failure, or goes on. -/
def Answer.goesOn (answer : Answer) : Bool :=
  answer.accepted && (answer.offered != 0 || answer.emptyStatus == .moreToRead)

/-- Where the read with this number begins, as long as there are bytes to read. -/
def Replies.position (k : ℕ) : ℕ := ∑ j ∈ Finset.range k, (r.reads j).offered

/-- The loop makes the read with this number. -/
def Performed (k : ℕ) : Prop :=
  r.position k < dev.length ∧ ∀ j < k, (r.reads j).goesOn = true

/-- A read ends the loop with a failure. -/
def Stopped : Prop := ∃ k, Performed dev r k ∧ (r.reads k).goesOn = false

/-- All bytes have been read. -/
def Completed : Prop :=
  ∃ k, dev.length ≤ r.position k ∧ ∀ j < k, r.position j < dev.length ∧ (r.reads j).goesOn = true

/-- What the loop has collected before the read with this number. -/
def fetched : ℕ → List UInt8
  | 0 => []
  | k + 1 => fetched k ++ slice dev.memory ((r.position k + 2) % 2 ^ 16)
      (min (r.reads k).offered (dev.length - r.position k))

theorem position_succ (k : ℕ) : r.position (k + 1) = r.position k + (r.reads k).offered :=
  Finset.sum_range_succ _ _

theorem position_mono {j k : ℕ} (h : j ≤ k) : r.position j ≤ r.position k :=
  Finset.sum_le_sum_of_subset (Finset.range_mono h)

section Loop

variable {dev r} {k : ℕ} (fuel : ℕ) (data : List UInt8)

theorem readLoop_goesOn (hk : r.position k < dev.length) (hgo : (r.reads k).goesOn = true) :
    readLoop dev r (fuel + 1) k (r.position k) data =
      readLoop dev r fuel (k + 1) (min (r.position (k + 1)) dev.length)
        (data ++ slice dev.memory ((r.position k + 2) % 2 ^ 16)
          (min (r.reads k).offered (dev.length - r.position k))) := by
  rw [Answer.goesOn, Bool.and_eq_true] at hgo
  have hnext := position_succ r k
  generalize hgiven : min (r.reads k).offered (dev.length - r.position k) = given
  have hend : r.position k + given = min (r.position (k + 1)) dev.length := by omega
  have hstatus : ¬ (dev.status (r.reads k) ((r.position k + 2) % 2 ^ 16) given ≠ .moreToRead ∧
      r.position k + given < dev.length) := by
    rintro ⟨hmore, hlt⟩
    apply hmore
    rw [Device.status]
    split_ifs with hzero hfollows
    · have hempty : (r.reads k).offered = 0 := by omega
      simpa [hempty] using hgo.2
    · rfl
    · omega
  rw [readLoop, if_pos hk, if_neg (not_not.mpr hgo.1)]
  simp only [hgiven, if_neg (show ¬ r.position k + given > dev.length by omega), if_neg hstatus]
  rw [hend]

theorem readLoop_stops (hk : r.position k < dev.length) (hgo : (r.reads k).goesOn = false) :
    readLoop dev r (fuel + 1) k (r.position k) data = some none := by
  rw [readLoop, if_pos hk]
  by_cases haccepted : (r.reads k).accepted = true
  · rw [Answer.goesOn, haccepted, Bool.true_and, Bool.or_eq_false_iff] at hgo
    have hempty : (r.reads k).offered = 0 := by simpa using hgo.1
    have hstatus : (r.reads k).emptyStatus ≠ .moreToRead := by simpa using hgo.2
    rw [if_neg (not_not.mpr haccepted)]
    simp only [hempty, Nat.zero_min, Device.status, if_true, Nat.add_zero,
      if_neg (show ¬ r.position k > dev.length by omega)]
    exact if_pos ⟨hstatus, hk⟩
  · rw [if_pos haccepted]

theorem readLoop_done (hk : dev.length ≤ r.position k) :
    readLoop dev r (fuel + 1) k (min (r.position k) dev.length) data = some (some data) := by
  rw [readLoop, if_neg (by omega)]

theorem readLoop_advance :
    ∀ {k : ℕ} (fuel : ℕ), (∀ j < k, r.position j < dev.length ∧ (r.reads j).goesOn = true) →
      readLoop dev r (fuel + k) 0 0 [] =
        readLoop dev r fuel k (min (r.position k) dev.length) (fetched dev r k) := by
  intro k
  induction k with
  | zero =>
    intro fuel _
    rw [Nat.add_zero, Replies.position, Finset.sum_range_zero, Nat.zero_min, fetched]
  | succ k ih =>
    intro fuel h
    obtain ⟨hk, hgo⟩ := h k (Nat.lt_succ_self k)
    rw [show fuel + (k + 1) = fuel + 1 + k by omega,
      ih (fuel + 1) fun j hj => h j (Nat.lt_succ_of_lt hj), Nat.min_eq_left hk.le,
      readLoop_goesOn fuel _ hk hgo, fetched]

theorem readLoop_add {x : Option (List UInt8)} (extra : ℕ) :
    ∀ {fuel k bytesRead : ℕ} {data : List UInt8}, readLoop dev r fuel k bytesRead data = some x →
      readLoop dev r (fuel + extra) k bytesRead data = some x := by
  intro fuel
  induction fuel with
  | zero =>
    intro k bytesRead data h
    cases h
  | succ fuel ih =>
    intro k bytesRead data h
    rw [Nat.add_right_comm]
    rw [readLoop] at h ⊢
    by_cases hlt : bytesRead < dev.length
    · rw [if_pos hlt] at h ⊢
      by_cases haccepted : (r.reads k).accepted = true
      · rw [if_neg (not_not.mpr haccepted)] at h ⊢
        dsimp only at h ⊢
        generalize (if bytesRead + min (r.reads k).offered (dev.length - bytesRead) > dev.length
          then dev.length - bytesRead
          else min (r.reads k).offered (dev.length - bytesRead)) = dataLength at h ⊢
        split at h
        · rename_i hstatus
          rw [if_pos hstatus]
          exact h
        · rename_i hstatus
          rw [if_neg hstatus]
          exact ih h
      · rw [if_pos haccepted] at h ⊢
        exact h
    · rw [if_neg hlt] at h ⊢
      exact h

end Loop

def Ends (x : Option (List UInt8)) : Prop := ∃ fuel, readLoop dev r fuel 0 0 [] = some x

/-- The address of the last byte does not fit into 16 bits, and a read begins there. -/
def Wraps : Prop := dev.length = 2 ^ 16 - 1 ∧ ∃ k, r.position k = 2 ^ 16 - 2

open Classical in
noncomputable def handed : List UInt8 :=
  if Wraps dev r then slice dev.memory 2 (dev.length - 1) ++ [dev.memory 0]
  else slice dev.memory 2 dev.length

section Ends

variable {dev r}

theorem Ends.unique {x y : Option (List UInt8)} (hx : Ends dev r x)
    (hy : Ends dev r y) : x = y := by
  obtain ⟨m, hm⟩ := hx
  obtain ⟨n, hn⟩ := hy
  have h := readLoop_add n hm
  rw [Nat.add_comm, readLoop_add m hn] at h
  exact (Option.some.inj h).symm

theorem ends_of_stopped (h : Stopped dev r) : Ends dev r none := by
  obtain ⟨k, ⟨hk, hbefore⟩, hstop⟩ := h
  refine ⟨1 + k, ?_⟩
  have hperformed : ∀ j < k, r.position j < dev.length ∧ (r.reads j).goesOn = true := by
    intro j hj
    exact ⟨(position_mono r hj.le).trans_lt hk, hbefore j hj⟩
  rw [readLoop_advance 1 hperformed, Nat.min_eq_left hk.le, readLoop_stops 0 _ hk hstop]

/-- Up to the last address of 16 bits the pieces follow one another. -/
theorem fetched_eq_slice :
    ∀ {k : ℕ}, r.position k < dev.length →
      fetched dev r k = slice dev.memory 2 (r.position k) := by
  have hlength := dev.length_lt
  intro k
  induction k with
  | zero =>
    intro _
    rw [fetched, Replies.position, Finset.sum_range_zero, slice_zero]
  | succ k ih =>
    intro hk
    have hnext := position_succ r k
    have hgiven : min (r.reads k).offered (dev.length - r.position k) = (r.reads k).offered := by
      omega
    rw [fetched, ih (by omega), hgiven, hnext, slice_append]
    by_cases hempty : (r.reads k).offered = 0
    · rw [hempty, slice_zero, slice_zero]
    · rw [Nat.mod_eq_of_lt (by omega), Nat.add_comm (r.position k) 2]

/-- The read that completes the bytes starts at the byte whose address does not fit, or before
it. -/
theorem fetched_eq_handed {k : ℕ} (hk : dev.length ≤ r.position k)
    (hbefore : ∀ j < k, r.position j < dev.length) : fetched dev r k = handed dev r := by
  have hlength := dev.length_lt
  cases k with
  | zero =>
    rw [Replies.position, Finset.sum_range_zero, Nat.le_zero] at hk
    rw [handed, if_neg (by rintro ⟨h, -⟩; omega), hk, slice_zero, fetched]
  | succ k =>
    have hlast := hbefore k (Nat.lt_succ_self k)
    have hnext := position_succ r k
    have hgiven : min (r.reads k).offered (dev.length - r.position k) =
      dev.length - r.position k := by omega
    rw [fetched, fetched_eq_slice hlast, hgiven]
    by_cases hwrap : dev.length = 2 ^ 16 - 1 ∧ r.position k = 2 ^ 16 - 2
    · obtain ⟨hmax, hpos⟩ := hwrap
      rw [handed, if_pos ⟨hmax, k, hpos⟩, show r.position k = dev.length - 1 by omega,
        show dev.length - (dev.length - 1) = 1 by omega,
        show (dev.length - 1 + 2) % 2 ^ 16 = 0 by omega]
      rfl
    · have hnowrap : ¬ Wraps dev r := by
        rintro ⟨hmax, j, hj⟩
        apply hwrap
        rcases Nat.lt_or_ge k j with hlt | hge
        · have hmono : r.position (k + 1) ≤ r.position j := position_mono r hlt
          omega
        · have hmono := position_mono r hge
          omega
      rw [handed, if_neg hnowrap, Nat.mod_eq_of_lt (by omega), Nat.add_comm (r.position k) 2,
        ← slice_append, Nat.add_sub_cancel' hlast.le]

theorem ends_of_completed (h : Completed dev r) : Ends dev r (some (handed dev r)) := by
  obtain ⟨k, hk, hbefore⟩ := h
  refine ⟨1 + k, ?_⟩
  rw [readLoop_advance 1 hbefore, readLoop_done 0 _ hk,
    fetched_eq_handed hk fun j hj => (hbefore j hj).1]

theorem not_ends (h : ∀ k, r.position k < dev.length ∧ (r.reads k).goesOn = true)
    (x : Option (List UInt8)) : ¬ Ends dev r x := by
  rintro ⟨fuel, hfuel⟩
  rw [← Nat.zero_add fuel, readLoop_advance 0 fun j _ => h j] at hfuel
  cases hfuel

variable (dev r) in
theorem stopped_or_completed_or_never :
    Stopped dev r ∨ Completed dev r ∨
      ∀ k, r.position k < dev.length ∧ (r.reads k).goesOn = true := by
  classical
  by_cases h : ∃ k, ¬ (r.position k < dev.length ∧ (r.reads k).goesOn = true)
  · have hfirst : ∀ j < Nat.find h, r.position j < dev.length ∧ (r.reads j).goesOn = true := by
      intro j hj
      exact not_not.mp (Nat.find_min h hj)
    have hk := Nat.find_spec h
    rcases Nat.lt_or_ge (r.position (Nat.find h)) dev.length with hlt | hge
    · left
      refine ⟨Nat.find h, ⟨hlt, fun j hj => (hfirst j hj).2⟩, ?_⟩
      rw [Bool.eq_false_iff]
      intro hgo
      exact hk ⟨hlt, hgo⟩
    · exact Or.inr (Or.inl ⟨Nat.find h, hge, hfirst⟩)
  · right; right
    intro k
    by_contra hk
    exact h ⟨k, hk⟩

theorem exists_empty (h : ∀ k, r.position k < dev.length ∧ (r.reads k).goesOn = true) :
    ∃ k, (r.reads k).offered = 0 := by
  by_contra hnone
  have hgrows : ∀ k, k ≤ r.position k := by
    intro k
    induction k with
    | zero => exact Nat.zero_le _
    | succ k ih =>
      have hpos : (r.reads k).offered ≠ 0 := fun hzero => hnone ⟨k, hzero⟩
      rw [position_succ]
      omega
  exact absurd (hgrows dev.length) (Nat.not_le.mpr (h dev.length).1)

end Ends

/-- The load gets as far as the loop. -/
def Replies.Reaches : Prop :=
  r.openAccepted = true ∧ r.lengthField.accepted = true ∧ 2 ≤ r.lengthField.offered

def Yields (d : Descriptor σ) (o : Outcome σ) : Prop := ∃ fuel, load dev r parse fuel d = some o

/-- What is returned after all bytes have been read. -/
noncomputable def verdict (d : Descriptor σ) : Option Bool :=
  if ¬ r.closeAccepted then some false
  else (parse d.contents (handed dev r)).map Prod.snd

section Yields

variable {dev r parse} {d : Descriptor σ}

theorem load_of_not_reaches (hd : d.loaded = false) (h : ¬ r.Reaches) (fuel : ℕ) :
    load dev r parse fuel d = some (.failed d) := by
  rw [load, if_neg (by rw [hd]; exact Bool.false_ne_true)]
  split_ifs with hopen haccepted hoffered
  · rfl
  · exact absurd ⟨hopen, haccepted, by omega⟩ h
  · rfl
  · rfl

theorem load_of_reaches (hd : d.loaded = false) (h : r.Reaches) (fuel : ℕ) :
    load dev r parse fuel d = (readLoop dev r fuel 0 0 []).map (closeAndParse r parse d) := by
  obtain ⟨hopen, haccepted, hoffered⟩ := h
  rw [load, if_neg (by rw [hd]; exact Bool.false_ne_true), if_neg (not_not.mpr hopen),
    if_neg (not_not.mpr haccepted), if_neg (by omega)]

theorem yields_of_not_reaches (hd : d.loaded = false) (h : ¬ r.Reaches) (o : Outcome σ) :
    Yields dev r parse d o ↔ o = .failed d := by
  constructor
  · rintro ⟨fuel, hfuel⟩
    rw [load_of_not_reaches hd h] at hfuel
    exact (Option.some.inj hfuel).symm
  · rintro rfl
    exact ⟨0, load_of_not_reaches hd h 0⟩

theorem yields_iff_ends (hd : d.loaded = false) (h : r.Reaches) (o : Outcome σ) :
    Yields dev r parse d o ↔ ∃ x, Ends dev r x ∧ o = closeAndParse r parse d x := by
  constructor
  · rintro ⟨fuel, hfuel⟩
    rw [load_of_reaches hd h] at hfuel
    obtain ⟨x, hx, ho⟩ := Option.map_eq_some_iff.mp hfuel
    exact ⟨x, ⟨fuel, hx⟩, ho.symm⟩
  · rintro ⟨x, ⟨fuel, hfuel⟩, rfl⟩
    exact ⟨fuel, by rw [load_of_reaches hd h, hfuel, Option.map_some]⟩

theorem yields_of_ends (hd : d.loaded = false) (h : r.Reaches) {x : Option (List UInt8)}
    (hx : Ends dev r x) (o : Outcome σ) :
    Yields dev r parse d o ↔ o = closeAndParse r parse d x := by
  rw [yields_iff_ends hd h]
  constructor
  · rintro ⟨y, hy, rfl⟩
    rw [hx.unique hy]
  · rintro rfl
    exact ⟨x, hx, rfl⟩

variable (dev r parse d) in
theorem closeAndParse_result :
    (closeAndParse r parse d (some (handed dev r))).result = verdict dev r parse d := by
  rw [closeAndParse, verdict]
  split_ifs with hclose
  · rw [finish]
    rcases parse d.contents (handed dev r) with _ | ⟨contents, _ | _⟩
    · rfl
    · rfl
    · rfl
  · rfl

theorem closeAndParse_handed {data : List UInt8}
    (h : (closeAndParse r parse d (some data)).result = some true) :
    (closeAndParse r parse d (some data)).handed = some data := by
  rw [closeAndParse] at h ⊢
  split_ifs at h ⊢ with hclose
  · rw [finish]
    rcases parse d.contents data with _ | ⟨contents, _ | _⟩
    · rfl
    · rfl
    · rfl
  · cases h

/-- A load returns true after all bytes have been read and parsed. -/
theorem yields_true_iff (hd : d.loaded = false) (o : Outcome σ) :
    Yields dev r parse d o ∧ o.result = some true ↔
      r.Reaches ∧ Completed dev r ∧ r.closeAccepted = true ∧
        ∃ contents, parse d.contents (handed dev r) = some (contents, true) ∧
          o = ⟨some true, some (handed dev r), ⟨contents, true⟩⟩ := by
  constructor
  · rintro ⟨ho, htrue⟩
    by_cases hreach : r.Reaches
    · obtain ⟨x, hx, rfl⟩ := (yields_iff_ends hd hreach o).mp ho
      obtain h | h | h := stopped_or_completed_or_never dev r
      · rw [hx.unique (ends_of_stopped h)] at htrue
        cases htrue
      · rw [hx.unique (ends_of_completed h)] at htrue ⊢
        refine ⟨hreach, h, ?_⟩
        rw [closeAndParse] at htrue ⊢
        split_ifs at htrue ⊢ with hclose
        · refine ⟨hclose, ?_⟩
          rw [finish] at htrue ⊢
          rcases hparse : parse d.contents (handed dev r) with _ | ⟨contents, _ | _⟩
          · rw [hparse] at htrue
            cases htrue
          · rw [hparse] at htrue
            cases htrue
          · exact ⟨contents, rfl, rfl⟩
        · cases htrue
      · exact absurd hx (not_ends h x)
    · rw [(yields_of_not_reaches hd hreach o).mp ho] at htrue
      cases htrue
  · rintro ⟨hreach, hdone, hclose, contents, hparse, rfl⟩
    refine ⟨(yields_of_ends hd hreach (ends_of_completed hdone) _).mpr ?_, rfl⟩
    rw [closeAndParse, if_neg (not_not.mpr hclose), finish, hparse]

end Yields

/-- The device answers a read that is made with no bytes. -/
def EmptyPiece : Prop :=
  r.openAccepted = true ∧ r.lengthField.accepted = true ∧
    (r.lengthField.offered = 0 ∨ 2 ≤ r.lengthField.offered ∧
      ∃ k, Performed dev r k ∧ (r.reads k).accepted = true ∧ (r.reads k).offered = 0)

/-- The load ends with a result, what it hands to the parser when it returns true are the bytes of
the descriptor, and an empty piece makes it return false. -/
structure LoadsRight (d : Descriptor σ) : Prop where
  terminates : ∃ o, Yields dev r parse d o ∧ o.result ≠ none
  complete : ∀ o, Yields dev r parse d o → o.result = some true →
    o.handed = some (slice dev.memory 2 dev.length)
  emptyFails : EmptyPiece dev r → ∃ o, Yields dev r parse d o ∧ o.result = some false

/-- The device tells that more follows behind no bytes. -/
def EmptyWithMore : Prop :=
  ∃ k, Performed dev r k ∧ (r.reads k).accepted = true ∧ (r.reads k).offered = 0 ∧
    (r.reads k).emptyStatus = .moreToRead

section

variable {dev r}

theorem emptyWithMore_or_stopped {k : ℕ} (hk : Performed dev r k)
    (haccepted : (r.reads k).accepted = true) (hoffered : (r.reads k).offered = 0) :
    EmptyWithMore dev r ∨ Stopped dev r := by
  cases hgo : (r.reads k).goesOn with
  | false => exact Or.inr ⟨k, hk, hgo⟩
  | true =>
    rw [Answer.goesOn, haccepted, hoffered] at hgo
    exact Or.inl ⟨k, hk, haccepted, hoffered, by simpa using hgo⟩

theorem stopped_or_completed (h : EmptyWithMore dev r → Stopped dev r ∨ Completed dev r) :
    Stopped dev r ∨ Completed dev r := by
  obtain hstop | hdone | hnever := stopped_or_completed_or_never dev r
  · exact Or.inl hstop
  · exact Or.inr hdone
  · obtain ⟨k, hempty⟩ := exists_empty hnever
    have haccepted : (r.reads k).accepted = true := (Bool.and_eq_true_iff.mp (hnever k).2).1
    obtain hmore | hstop :=
      emptyWithMore_or_stopped ⟨(hnever k).1, fun j _ => (hnever j).2⟩ haccepted hempty
    · exact h hmore
    · exact Or.inl hstop

end

/-- What the device, and the parser on what it gets, must do once the loop is reached. -/
structure Cooperates (d : Descriptor σ) : Prop where
  parses : Completed dev r → verdict dev r parse d ≠ none
  emptyWithMore : EmptyWithMore dev r →
    Stopped dev r ∨ Completed dev r ∧ verdict dev r parse d = some false
  lastByte : Completed dev r → verdict dev r parse d = some true → Wraps dev r →
    dev.memory (2 ^ 16) = dev.memory 0

variable {dev r} in
theorem handed_eq_iff :
    handed dev r = slice dev.memory 2 dev.length ↔
      (Wraps dev r → dev.memory (2 ^ 16) = dev.memory 0) := by
  by_cases h : Wraps dev r
  · have hmax := h.1
    have hlast : slice dev.memory 2 dev.length =
        slice dev.memory 2 (dev.length - 1) ++ [dev.memory (2 ^ 16)] := by
      rw [show 2 ^ 16 = 2 + (dev.length - 1) by omega]
      conv_lhs => rw [show dev.length = dev.length - 1 + 1 by omega]
      exact slice_append _ _ _ _
    rw [handed, if_pos h, hlast, List.append_cancel_left_eq, List.singleton_inj]
    constructor
    · intro heq _
      exact heq.symm
    · intro heq
      exact (heq h).symm
  · rw [handed, if_neg h]
    exact iff_of_true rfl fun hwraps => absurd hwraps h

variable {dev r parse} in
theorem loadsRight_iff {d : Descriptor σ} (hd : d.loaded = false) :
    LoadsRight dev r parse d ↔ (r.Reaches → Cooperates dev r parse d) := by
  by_cases hreach : r.Reaches
  · have hstop : Stopped dev r → ∀ o, Yields dev r parse d o ↔ o = .failed d :=
      fun h => yields_of_ends hd hreach (ends_of_stopped h)
    have hdone : Completed dev r → ∀ o,
        Yields dev r parse d o ↔ o = closeAndParse r parse d (some (handed dev r)) :=
      fun h => yields_of_ends hd hreach (ends_of_completed h)
    have hresult := closeAndParse_result dev r parse d
    constructor
    · rintro ⟨hends, hcomplete, hempty⟩ -
      constructor
      · intro h
        obtain ⟨o, ho, hsome⟩ := hends
        rw [(hdone h o).mp ho, hresult] at hsome
        exact hsome
      · rintro ⟨k, hk, haccepted, hoffered, -⟩
        obtain ⟨o, ho, hfalse⟩ :=
          hempty ⟨hreach.1, hreach.2.1, Or.inr ⟨hreach.2.2, k, hk, haccepted, hoffered⟩⟩
        obtain h | h | h := stopped_or_completed_or_never dev r
        · exact Or.inl h
        · rw [(hdone h o).mp ho, hresult] at hfalse
          exact Or.inr ⟨h, hfalse⟩
        · obtain ⟨x, hx, -⟩ := (yields_iff_ends hd hreach o).mp ho
          exact absurd hx (not_ends h x)
      · intro h htrue
        rw [← hresult] at htrue
        have hhanded := hcomplete _ ((hdone h _).mpr rfl) htrue
        rw [closeAndParse_handed htrue] at hhanded
        exact handed_eq_iff.mp (Option.some.inj hhanded)
    · intro h
      obtain ⟨hparses, hempty, hlast⟩ := h hreach
      have hends := stopped_or_completed fun hmore => (hempty hmore).imp_right And.left
      constructor
      · obtain h | h := hends
        · exact ⟨_, (hstop h _).mpr rfl, Option.some_ne_none _⟩
        · refine ⟨_, (hdone h _).mpr rfl, ?_⟩
          rw [hresult]
          exact hparses h
      · intro o ho htrue
        obtain h | h := hends
        · rw [(hstop h o).mp ho] at htrue
          cases htrue
        · rw [(hdone h o).mp ho] at htrue ⊢
          rw [closeAndParse_handed htrue, handed_eq_iff.mpr]
          rw [hresult] at htrue
          exact hlast h htrue
      · rintro ⟨-, -, hzero | ⟨-, k, hk, haccepted, hoffered⟩⟩
        · exact absurd hreach.2.2 (by omega)
        · obtain hmore | h := emptyWithMore_or_stopped hk haccepted hoffered
          · obtain h | ⟨h, hfalse⟩ := hempty hmore
            · exact ⟨_, (hstop h _).mpr rfl, rfl⟩
            · exact ⟨_, (hdone h _).mpr rfl, hresult.trans hfalse⟩
          · exact ⟨_, (hstop h _).mpr rfl, rfl⟩
  · have hyields : ∀ o, Yields dev r parse d o ↔ o = .failed d := yields_of_not_reaches hd hreach
    refine iff_of_true ⟨?_, ?_, ?_⟩ fun h => absurd h hreach
    · exact ⟨_, (hyields _).mpr rfl, Option.some_ne_none _⟩
    · intro o ho htrue
      rw [(hyields o).mp ho] at htrue
      cases htrue
    · intro _
      exact ⟨_, (hyields _).mpr rfl, rfl⟩

end Ffado.Avc.DescriptorLoad
