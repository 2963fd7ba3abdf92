import Mathlib.Data.List.Nodup
import Mathlib.Data.Fintype.EquivFin
import Ffado.Util.XmlCache

/-!
# Strings that select devices

A string such as `hw:0,1;guid:0x1234` says which devices are used. Each of its parts is a port of
the bus, a node on a port or a GUID, and the parser matches the devices of all of them.
-/
namespace Ffado.Devices

open XmlEvents Util.Xml

/-- What is asked of a device. -/
structure ConfigRom where
  port : ℕ
  nodeId : ℕ
  guid : UInt64

inductive StringType
  | invalid | busNode | guid
deriving DecidableEq

structure DeviceString where
  node : ℤ := -1
  port : ℤ := -1
  guid : UInt64 := 0
  type : StringType := .invalid
deriving DecidableEq

namespace DeviceString

/-- `strtol` sets `errno`. A `long` has 64 bits. -/
def outOfRange (cs : Str) : Bool :=
  let value := signedValue (cs.dropWhile isspace)
  value < -2 ^ 63 || 2 ^ 63 ≤ value

def intValue (cs : Str) : ℤ := (strtoll cs).toInt32.toInt

/-- The object if the string is accepted. -/
def parse (s : Str) : Option DeviceString :=
  if s.take 3 = "hw:".toList then
    let detail := s.drop 3
    let port := detail.takeWhile (· ≠ ',')
    if outOfRange port then none
    else match detail.dropWhile (· ≠ ',') with
      | [] => some { type := .busNode, port := intValue port }
      | _ :: node =>
        if outOfRange node then none
        else some { type := .busNode, port := intValue port, node := intValue node }
  else if s.take 5 = "guid:".toList then
    if outOfRange (s.drop 5) then none
    else some { type := .guid, guid := (strtoll (s.drop 5)).toUInt64 }
  else none

def isValidString (s : Str) : Bool :=
  if s.take 3 = "hw:".toList then
    let detail := s.drop 3
    match detail.dropWhile (· ≠ ',') with
    | [] => !outOfRange detail
    | _ :: node => !outOfRange (detail.takeWhile (· ≠ ',')) && !outOfRange node
  else if s.take 5 = "guid:".toList then !outOfRange (s.drop 5)
  else false

def matchRom (d : DeviceString) (configRom : ConfigRom) : Bool :=
  match d.type with
  | .busNode =>
    if d.port < 0 then false
    else configRom.port = d.port && (d.node < 0 || (configRom.nodeId &&& 0x3F : ℕ) = d.node)
  | .guid => d.guid ≠ 0 && d.guid = configRom.guid
  | .invalid => false

/-- `operator==`, which does not look at the type of the other string. -/
def equals (d x : DeviceString) : Bool :=
  match d.type with
  | .busNode => d.port = x.port && d.node = x.node
  | .guid => d.guid ≠ 0 && d.guid = x.guid
  | .invalid => false

/-- What a string leaves as it is when it is accepted. -/
theorem parse_cases {s : Str} {d : DeviceString} (h : parse s = some d) :
    d.type = .busNode ∧ d.guid = 0 ∨ d.type = .guid ∧ d.port = -1 ∧ d.node = -1 := by
  unfold parse at h
  dsimp only at h
  split_ifs at h
  · split at h
    · cases h
      exact .inl ⟨rfl, rfl⟩
    · split_ifs at h
      cases h
      exact .inl ⟨rfl, rfl⟩
  · cases h
    exact .inr ⟨rfl, rfl, rfl⟩

end DeviceString

/-- The objects of the vector. -/
abbrev DeviceStringParser := List DeviceString

namespace DeviceStringParser

/-- An object of the vector with its address. -/
abbrev Pointer := DeviceString × ℕ

/-- A string that is accepted is added as a new object. -/
def addPart (p : DeviceStringParser) (part : Str) : DeviceStringParser :=
  p ++ (DeviceString.parse part).toList

/-- The loop over the parts, which does not take an empty one at the end. -/
def parseParts : ℕ → Str → DeviceStringParser → DeviceStringParser
  | 0, _, p => p
  | n + 1, tmp, p =>
    let p := addPart p (tmp.takeWhile (· ≠ ';'))
    match tmp.dropWhile (· ≠ ';') with
    | _ :: c :: rest => parseParts n (c :: rest) p
    | _ => p

def duplicates : List Pointer → List Pointer
  | [] => []
  | d :: ds => (ds.filter fun x => d.1.equals x.1) ++ duplicates ds

def removeDeviceString (ds : List Pointer) (o : Pointer) : List Pointer := ds.erase o

/-- No object is in the vector twice, so that its place stands for the address. -/
def pruneDuplicates (p : DeviceStringParser) : DeviceStringParser :=
  ((duplicates p.zipIdx).foldl removeDeviceString p.zipIdx).map Prod.fst

def parseString (s : Str) (p : DeviceStringParser) : DeviceStringParser :=
  pruneDuplicates (parseParts (s.length + 1) s p)

def matchPosition (p : DeviceStringParser) (c : ConfigRom) : ℤ :=
  match p.findIdx? (·.matchRom c) with
  | some pos => pos
  | none => -1

def matchRom (p : DeviceStringParser) (c : ConfigRom) : Prop := p.matchPosition c ≠ -1

def partMatches (c : ConfigRom) (part : Str) : Bool :=
  (DeviceString.parse part).any (·.matchRom c)

def firstPart (s : Str) (c : ConfigRom) : ℕ := (s.splitOn ';').findIdx (partMatches c)

def accepted (s : Str) : DeviceStringParser := (s.splitOn ';').filterMap DeviceString.parse

def IsWild (d : DeviceString) : Prop := d.type = .busNode ∧ d.port = -1 ∧ d.node = -1

/-- Before each GUID is an equal one, or no string that is taken to be equal to it. -/
def NoneHidden (p : DeviceStringParser) : Prop :=
  ∀ before d after, p = before ++ d :: after → d.type = .guid → d.guid ≠ 0 →
    (∃ x ∈ before, IsWild x) → ∃ x ∈ before, x.type = .guid ∧ x.guid = d.guid

/-- What is left of the strings after others. -/
def unequal (seen : DeviceStringParser) : DeviceStringParser → DeviceStringParser
  | [] => []
  | d :: ds =>
    if seen.any (·.equals d) then unequal (seen ++ [d]) ds else d :: unequal (seen ++ [d]) ds

/-- The strings that a predicate holds of are not lost with those that have an equal one. -/
def Covers (p : DeviceStringParser) (holds : DeviceString → Bool) : Prop :=
  ∀ before d after, p = before ++ d :: after → before.any (·.equals d) → holds d →
    ∃ x ∈ before, holds x

theorem ne_of_notMem {part : Str} (h : ';' ∉ part) : ∀ c ∈ part, decide (c ≠ ';') = true :=
  fun _ hc => decide_eq_true fun hsep => h (hsep ▸ hc)

theorem accepted_of_notMem {part : Str} (h : ';' ∉ part) :
    accepted part = (DeviceString.parse part).toList := by
  rw [accepted, List.splitOn_eq_singleton h, List.filterMap_cons, List.filterMap_nil]
  cases DeviceString.parse part <;> rfl

theorem accepted_append {part : Str} (h : ';' ∉ part) (rest : Str) :
    accepted (part ++ ';' :: rest) = (DeviceString.parse part).toList ++ accepted rest := by
  rw [accepted, List.splitOn_append_cons_self_of_not_mem h, List.filterMap_cons]
  cases DeviceString.parse part <;> rfl

theorem parseParts_eq {n : ℕ} {tmp : Str} (h : tmp.length < n) (p : DeviceStringParser) :
    parseParts n tmp p = p ++ accepted tmp := by
  induction n generalizing tmp p with
  | zero => omega
  | succ n ih =>
    by_cases hmem : ';' ∈ tmp
    · obtain ⟨part, rest, rfl, hpart⟩ := List.eq_append_cons_of_mem hmem
      have hne := ne_of_notMem hpart
      rw [accepted_append hpart, parseParts, List.takeWhile_append_of_pos hne,
        List.dropWhile_append_of_pos hne]
      cases rest with
      | nil =>
        have hnil : accepted [] = [] := rfl
        simp [addPart, hnil]
      | cons c rest =>
        have hlt : (c :: rest).length < n := by
          simp at h ⊢
          omega
        simpa [addPart] using ih hlt (addPart p part)
    · have hne := ne_of_notMem hmem
      have hdrop : tmp.dropWhile (· ≠ ';') = [] := List.dropWhile_eq_nil_iff.mpr hne
      rw [accepted_of_notMem hmem, parseParts, hdrop, List.takeWhile_eq_self_iff.mpr hne]
      rfl

theorem mem_of_mem_duplicates {ds : List Pointer} {x : Pointer}
    (h : x ∈ duplicates ds) : x ∈ ds := by
  induction ds with
  | nil => exact h
  | cons d ds ih =>
    rcases List.mem_append.mp h with h | h
    · exact List.mem_cons_of_mem _ (List.mem_of_mem_filter h)
    · exact List.mem_cons_of_mem _ (ih h)

theorem map_filter_duplicates {ds : List Pointer} (h : ds.Nodup) (seen : DeviceStringParser) :
    (ds.filter fun x => x ∉ duplicates ds ∧ ¬ seen.any (·.equals x.1)).map Prod.fst =
      unequal seen (ds.map Prod.fst) := by
  induction ds generalizing seen with
  | nil => rfl
  | cons d ds ih =>
    obtain ⟨hd, hds⟩ := List.nodup_cons.mp h
    have hhead : d ∉ duplicates (d :: ds) := by
      intro hmem
      rcases List.mem_append.mp hmem with hmem | hmem
      · exact hd (List.mem_of_mem_filter hmem)
      · exact hd (mem_of_mem_duplicates hmem)
    have htail : ds.filter (fun x => x ∉ duplicates (d :: ds) ∧ ¬ seen.any (·.equals x.1)) =
        ds.filter fun x => x ∉ duplicates ds ∧ ¬ (seen ++ [d.1]).any (·.equals x.1) := by
      apply List.filter_congr
      intro x hx
      simp only [duplicates, List.mem_append, List.mem_filter, hx, true_and, List.any_append,
        List.any_cons, List.any_nil, Bool.or_false, Bool.or_eq_true]
      exact decide_eq_decide.mpr (by tauto)
    rw [List.filter_cons, List.map_cons, unequal, htail]
    by_cases hseen : seen.any (·.equals d.1) = true
    · simp [hhead, hseen, ← ih hds]
    · simp [hhead, hseen, ← ih hds]

theorem pruneDuplicates_eq (p : DeviceStringParser) : pruneDuplicates p = unequal [] p := by
  have hnodup : p.zipIdx.Nodup := List.Nodup.of_map Prod.snd (by simp [List.nodup_range'])
  have hremove : (duplicates p.zipIdx).foldl removeDeviceString p.zipIdx =
      p.zipIdx.filter fun x => x ∉ duplicates p.zipIdx ∧
        ¬ ([] : DeviceStringParser).any (·.equals x.1) := by
    refine (List.diff_eq_foldl _ _).symm.trans (hnodup.sdiff_eq_filter.trans ?_)
    simp
  rw [pruneDuplicates, hremove, map_filter_duplicates hnodup, List.zipIdx_map_fst]

theorem parseString_eq (s : Str) : parseString s [] = unequal [] (accepted s) := by
  rw [parseString, parseParts_eq (Nat.lt_succ_self _), List.nil_append, pruneDuplicates_eq]

theorem findIdx_unequal {seen ds : DeviceStringParser} {first second : DeviceString → Bool}
    (hfirst : Covers (seen ++ ds) first) (hsecond : Covers (seen ++ ds) second)
    (hseen : ∀ x ∈ seen, first x = false ∧ second x = false) :
    (unequal seen ds).findIdx first < (unequal seen ds).findIdx second ↔
      ds.findIdx first < ds.findIdx second := by
  induction ds generalizing seen with
  | nil => rfl
  | cons d ds ih =>
    by_cases hd : first d = false ∧ second d = false
    · rw [List.append_cons] at hfirst hsecond
      have hnext := ih hfirst hsecond fun x hx => by
        rcases List.mem_append.mp hx with hx | hx
        · exact hseen x hx
        · exact List.mem_singleton.mp hx ▸ hd
      unfold unequal
      split_ifs
      · simp [List.findIdx_cons, hd, hnext]
      · simp [List.findIdx_cons, hd, hnext]
    · have hkept : ¬ seen.any (·.equals d) := by
        intro hany
        apply hd
        constructor
        · by_contra hholds
          obtain ⟨x, hx, hholds⟩ := hfirst seen d ds rfl hany (by simpa using hholds)
          simp [hseen x hx] at hholds
        · by_contra hholds
          obtain ⟨x, hx, hholds⟩ := hsecond seen d ds rfl hany (by simpa using hholds)
          simp [hseen x hx] at hholds
      rw [unequal, if_neg hkept, List.findIdx_cons, List.findIdx_cons, List.findIdx_cons,
        List.findIdx_cons]
      cases hone : first d <;> cases htwo : second d <;> simp_all

theorem exists_mem_unequal {p : DeviceStringParser} {holds : DeviceString → Bool}
    (h : Covers p holds) : (∃ d ∈ unequal [] p, holds d) ↔ ∃ d ∈ p, holds d := by
  have hnone : ∀ l : DeviceStringParser, l.findIdx (fun _ => false) = l.length := fun l =>
    List.findIdx_eq_length_of_false fun _ _ => rfl
  have hiff := @findIdx_unequal [] p _ (fun _ => false) h (fun _ _ _ _ _ hfalse => by cases hfalse)
    (by simp)
  rwa [hnone, hnone, List.findIdx_lt_length, List.findIdx_lt_length] at hiff

theorem cases_of_mem {s : Str} {d : DeviceString} (h : d ∈ accepted s) :
    d.type = .busNode ∧ d.guid = 0 ∨ d.type = .guid ∧ d.port = -1 ∧ d.node = -1 := by
  obtain ⟨part, -, hparse⟩ := List.mem_filterMap.mp h
  exact DeviceString.parse_cases hparse

theorem covers_matchRom {s : Str} (h : NoneHidden (accepted s)) (c : ConfigRom) :
    Covers (accepted s) (·.matchRom c) := by
  intro before d after heq hany hmatch
  obtain ⟨x, hx, hequal⟩ := List.any_eq_true.mp hany
  have hxs : x ∈ accepted s := heq ▸ List.mem_append_left _ hx
  have hds : d ∈ accepted s := heq ▸ by simp
  rcases cases_of_mem hxs with ⟨hxt, hxg⟩ | ⟨hxt, -, -⟩ <;>
    rcases cases_of_mem hds with ⟨hdt, hdg⟩ | ⟨hdt, hdp, hdn⟩ <;>
    simp only [DeviceString.equals, DeviceString.matchRom, hxt, hdt, Bool.and_eq_true,
      decide_eq_true_eq] at hequal hmatch
  · exact ⟨x, hx, by simpa [DeviceString.matchRom, hxt, hequal] using hmatch⟩
  · obtain ⟨y, hy, hyt, hyg⟩ := h before d after heq hdt hmatch.1
      ⟨x, hx, hxt, hequal.1.trans hdp, hequal.2.trans hdn⟩
    exact ⟨y, hy, by simpa [DeviceString.matchRom, hyt, hyg] using hmatch⟩
  · exact absurd (hequal.2.trans hdg) hequal.1
  · exact ⟨x, hx, by simpa [DeviceString.matchRom, hxt, hequal.2] using hmatch⟩

theorem matchPosition_of_mem {p : DeviceStringParser} {c : ConfigRom} (h : ∃ d ∈ p, d.matchRom c) :
    p.matchPosition c = p.findIdx (·.matchRom c) := by
  rw [matchPosition, List.findIdx?_eq_some_iff_findIdx_eq.mpr ⟨List.findIdx_lt_length.mpr h, rfl⟩]

theorem matchRom_iff {p : DeviceStringParser} {c : ConfigRom} :
    p.matchRom c ↔ ∃ d ∈ p, d.matchRom c := by
  constructor
  · intro hmatch
    by_contra hnone
    apply hmatch
    rw [matchPosition, List.findIdx?_eq_none_iff.mpr (by simpa using hnone)]
  · intro h
    rw [matchRom, matchPosition_of_mem h]
    omega

theorem mem_accepted {s : Str} {c : ConfigRom} :
    (∃ d ∈ accepted s, d.matchRom c) ↔ ∃ part ∈ s.splitOn ';', partMatches c part := by
  constructor
  · rintro ⟨d, hd, hmatch⟩
    obtain ⟨part, hpart, hparse⟩ := List.mem_filterMap.mp hd
    exact ⟨part, hpart, by rwa [partMatches, hparse]⟩
  · rintro ⟨part, hpart, hmatch⟩
    obtain ⟨d, hparse, hmatch⟩ := (Option.any_eq_true _ _).mp hmatch
    exact ⟨d, List.mem_filterMap.mpr ⟨part, hpart, hparse⟩, hmatch⟩

theorem findIdx_filterMap {α β : Type*} (f : α → Option β) (p q : β → Bool) (l : List α) :
    (l.filterMap f).findIdx p < (l.filterMap f).findIdx q ↔
      l.findIdx (fun x => (f x).any p) < l.findIdx (fun x => (f x).any q) := by
  induction l with
  | nil => rfl
  | cons x l ih =>
    cases hx : f x with
    | none => simp [hx, List.findIdx_cons, ih]
    | some y =>
      simp only [List.filterMap_cons, hx, List.findIdx_cons, Option.any_some]
      cases p y <;> cases q y <;> simp [ih]

theorem mem_unequal {seen ds : DeviceStringParser} {x : DeviceString} (h : x ∈ unequal seen ds) :
    ∃ before after, ds = before ++ x :: after ∧ ¬ (seen ++ before).any (·.equals x) := by
  induction ds generalizing seen with
  | nil => cases h
  | cons d ds ih =>
    have hlater : x ∈ unequal (seen ++ [d]) ds → ∃ before after, d :: ds = before ++ x :: after ∧
        ¬ (seen ++ before).any (·.equals x) := by
      intro hmem
      obtain ⟨before, after, heq, hany⟩ := ih hmem
      exact ⟨d :: before, after, congrArg (d :: ·) heq, by simpa using hany⟩
    unfold unequal at h
    split_ifs at h with hany
    · exact hlater h
    · rcases List.mem_cons.mp h with rfl | h
      · exact ⟨[], ds, rfl, by simpa using hany⟩
      · exact hlater h

theorem noneHidden_of_matchRom {s : Str}
    (h : ∀ c, (∃ d ∈ accepted s, d.matchRom c) → ∃ d ∈ unequal [] (accepted s), d.matchRom c) :
    NoneHidden (accepted s) := by
  intro before d after heq htype hguid hwild
  -- a device on a port that is not in the string
  obtain ⟨port, hport⟩ := Infinite.exists_notMem_finset ((accepted s).map (·.port.toNat)).toFinset
  obtain ⟨x, hx, hmatch⟩ := h ⟨port, 0, d.guid⟩
    ⟨d, heq ▸ by simp, by simp [DeviceString.matchRom, htype, hguid]⟩
  obtain ⟨before', after', heq', hkept⟩ := mem_unequal hx
  have hxs : x ∈ accepted s := heq' ▸ by simp
  have hxport : (port : ℤ) ≠ x.port := by
    intro hp
    exact hport (by simpa using ⟨x, hxs, by omega⟩)
  obtain ⟨w, hw, hwtype, hwport, hwnode⟩ := hwild
  rcases cases_of_mem hxs with ⟨hxt, -⟩ | ⟨hxt, hxp, hxn⟩
  · simp [DeviceString.matchRom, hxt, hxport] at hmatch
  · have hequal : w.equals x := by
      simp [DeviceString.equals, hwtype, hwport, hwnode, hxp, hxn]
    have hw' : w ∉ before' := fun hmem => hkept (List.any_eq_true.mpr ⟨w, hmem, hequal⟩)
    have hxguid : x.guid = d.guid := by
      simp [DeviceString.matchRom, hxt] at hmatch
      exact hmatch.2
    rcases List.append_eq_append_iff.mp (heq.symm.trans heq') with ⟨l, rfl, -⟩ | ⟨l, rfl, hl⟩
    · exact absurd (List.mem_append_left _ hw) hw'
    · cases l with
      | nil => exact absurd (by simpa using hw) hw'
      | cons y l =>
        cases hl
        exact ⟨x, by simp, hxt, hxguid⟩

/-- The parser matches the devices of all parts, in the order of the parts, just if no GUID is
after a string for port and node -1. -/
theorem parseString_iff (s : Str) :
    ((∀ c, (parseString s []).matchRom c ↔ ∃ part ∈ s.splitOn ';', partMatches c part) ∧
      (∀ c c', (parseString s []).matchRom c → (parseString s []).matchRom c' →
        ((parseString s []).matchPosition c < (parseString s []).matchPosition c' ↔
          firstPart s c < firstPart s c')) ∧
      ∀ c, (pruneDuplicates (accepted s)).matchRom c ↔ (accepted s).matchRom c) ↔
    NoneHidden (accepted s) := by
  simp only [parseString_eq, pruneDuplicates_eq, matchRom_iff, ← mem_accepted]
  constructor
  · rintro ⟨hmatch, -, -⟩
    exact noneHidden_of_matchRom fun c => (hmatch c).mpr
  · intro h
    have hexists := fun c => exists_mem_unequal (covers_matchRom h c)
    refine ⟨hexists, fun c c' hc hc' => ?_, hexists⟩
    have hfind := @findIdx_unequal [] _ _ _ (covers_matchRom h c) (covers_matchRom h c') (by simp)
    rw [matchPosition_of_mem hc, matchPosition_of_mem hc', Int.ofNat_lt]
    exact hfind.trans (findIdx_filterMap _ _ _ _)

/-- A GUID after a string for no port is lost. -/
theorem parseString_hides :
    ¬ (parseString "hw:-1;guid:0x1234".toList []).matchRom ⟨0, 0, 0x1234⟩ ∧
      partMatches ⟨0, 0, 0x1234⟩ "guid:0x1234".toList := by
  refine ⟨fun h => h ?_, ?_⟩ <;> decide +kernel

end DeviceStringParser

namespace DeviceString

def guidText (digits : Str) : Str := "guid:0x".toList ++ digits

variable {digits : Str}

theorem parse_guidText : parse (guidText digits) =
    if outOfRange ((guidText digits).drop 5) then none
    else some { type := .guid, guid := (strtoll ((guidText digits).drop 5)).toUInt64 } :=
  rfl

theorem signedValue_guidText (hne : digits ≠ []) (hhex : ∀ c ∈ digits, digitValue c < 16) :
    signedValue (((guidText digits).drop 5).dropWhile isspace) = digitsValue 16 digits := by
  obtain ⟨c, cs, rfl⟩ := List.exists_cons_of_ne_nil hne
  have hc := hhex c List.mem_cons_self
  change signedValue ('0' :: 'x' :: c :: cs) = _
  simp [signedValue, unsignedValue, hc]

theorem notMem_guidText (hhex : ∀ c ∈ digits, digitValue c < 16) : ';' ∉ guidText digits := by
  intro hmem
  rcases List.mem_append.mp hmem with hmem | hmem
  · exact absurd hmem (by decide)
  · exact absurd (hhex _ hmem) (by decide)

/-- The digits select their GUID just if it is in the range of `strtoll`. -/
theorem guidText_iff (g : UInt64) (hg : g ≠ 0) (digits : Str) (hne : digits ≠ [])
    (hhex : ∀ c ∈ digits, digitValue c < 16) (hvalue : digitsValue 16 digits = g.toNat) :
    (isValidString (guidText digits) ∧ (parse (guidText digits)).isSome ∧
      ∀ c, (DeviceStringParser.parseString (guidText digits) []).matchRom c ↔ c.guid = g) ↔
    g.toNat < 2 ^ 63 := by
  have hsigned := signedValue_guidText hne hhex
  rw [hvalue] at hsigned
  have hvalid : isValidString (guidText digits) = !outOfRange ((guidText digits).drop 5) := rfl
  have hrange : outOfRange ((guidText digits).drop 5) = true ↔ ¬ g.toNat < 2 ^ 63 := by
    rw [outOfRange, hsigned]
    simp
  by_cases hlt : g.toNat < 2 ^ 63
  · have hin : outOfRange ((guidText digits).drop 5) = false := by
      simpa using hrange.not_left.mpr hlt
    have hguid : (strtoll ((guidText digits).drop 5)).toUInt64 = g := by
      rw [strtoll, hsigned, min_eq_right (by omega), max_eq_right (by omega)]
      simp [Int64.ofInt_eq_ofNat]
    have hparse : parse (guidText digits) = some { type := .guid, guid := g } := by
      rw [parse_guidText, hin, hguid]
      rfl
    have hstring : DeviceStringParser.parseString (guidText digits) [] =
        [{ type := .guid, guid := g }] := by
      rw [DeviceStringParser.parseString_eq,
        DeviceStringParser.accepted_of_notMem (notMem_guidText hhex), hparse]
      rfl
    refine iff_of_true ⟨by rw [hvalid, hin]; rfl, by rw [hparse]; rfl, fun c => ?_⟩ hlt
    rw [hstring, DeviceStringParser.matchRom_iff]
    simp [matchRom, hg, eq_comm (a := g)]
  · refine iff_of_false ?_ hlt
    rintro ⟨hvalid', -⟩
    rw [hvalid, hrange.mpr hlt] at hvalid'
    cases hvalid'

theorem guidText_iff_sample :
    (isValidString (guidText "000a3500000012ab".toList) ∧
      (parse (guidText "000a3500000012ab".toList)).isSome ∧
      ∀ c, (DeviceStringParser.parseString (guidText "000a3500000012ab".toList) []).matchRom c ↔
        c.guid = 0x000a3500000012ab) ↔
    (0x000a3500000012ab : UInt64).toNat < 2 ^ 63 := by
  have hhex : "000a3500000012ab".toList.all (fun c => digitValue c < 16) = true := by decide
  exact guidText_iff 0x000a3500000012ab (by decide) _ (by decide)
    (fun c hc => of_decide_eq_true (List.all_eq_true.mp hhex c hc)) (by decide +kernel)

/-- The upper half of the GUIDs is out of range. -/
theorem guidText_rejected :
    digitsValue 16 "8000000000000000".toList = (0x8000000000000000 : UInt64).toNat ∧
      isValidString (guidText "8000000000000000".toList) = false ∧
      parse (guidText "8000000000000000".toList) = none := by
  decide +kernel

end DeviceString

end Ffado.Devices
