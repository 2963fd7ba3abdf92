import Ffado.Dice.RoutingByName
import Mathlib.Data.List.DropRight

/-!
# Queries of a DICE router

The peak meters keep a maximum for each destination until it is asked for. The names of the sources
and destinations are in maps, and some of the queries look a name up with the operator that inserts
it.
-/
namespace Ffado.Dice

abbrev Peaks := UInt8 → Option ℕ

namespace PeakSpace

def dest (entry : Quadlet) : UInt8 := ⟨(entry &&& 0xff).setWidth 8⟩

def peak (entry : Quadlet) : ℕ := ((entry &&& 0xfff0000) >>> 16).toNat

/-- An entry that was read raises the peak of its destination. -/
def store (peaks : Peaks) (entry : Quadlet) : Peaks :=
  match peaks (dest entry) with
  | none => Function.update peaks (dest entry) (some (peak entry))
  | some old =>
    if old < peak entry then Function.update peaks (dest entry) (some (peak entry)) else peaks

def read (entries : List Quadlet) (peaks : Peaks) : Peaks := entries.foldl store peaks

/-- A destination without a peak is inserted with zero, and erased with the others. -/
def getPeak (dst : UInt8) (peaks : Peaks) : ℕ × Peaks :=
  ((peaks dst).getD 0, Function.update peaks dst none)

def getPeaks (peaks : Peaks) : Peaks × Peaks := (peaks, fun _ => none)

/-- A read has been successful. -/
inductive Op
  | read (entries : List Quadlet)
  | getPeak (dst : UInt8)
  | getPeaks

def step (peaks : Peaks) : Op → Peaks
  | .read entries => read entries peaks
  | .getPeak dst => (getPeak dst peaks).2
  | .getPeaks => (getPeaks peaks).2

def run (ops : List Op) : Peaks := ops.foldl step fun _ => none

def Op.returns (dst : UInt8) : Op → Bool
  | read _ => false
  | getPeak d => d = dst
  | getPeaks => true

def Op.values (dst : UInt8) : Op → List ℕ
  | read entries => (entries.filter (dest · = dst)).map peak
  | getPeak _ | getPeaks => []

def readSince (dst : UInt8) (ops : List Op) : List ℕ :=
  (ops.rtakeWhile fun op => !op.returns dst).flatMap (Op.values dst)

theorem max?_concat (l : List ℕ) (v : ℕ) :
    (l ++ [v]).max? = some (l.max?.elim v (max · v)) := by
  cases l with
  | nil => rfl
  | cons a l =>
    rw [List.cons_append, List.max?_cons', List.foldl_append, List.max?_cons']
    rfl

theorem store_apply {peaks : Peaks} {dst : UInt8} {l : List ℕ} (h : peaks dst = l.max?)
    (entry : Quadlet) :
    store peaks entry dst = (if dest entry = dst then l ++ [peak entry] else l).max? := by
  by_cases hdest : dest entry = dst
  · subst hdest
    rw [if_pos rfl, max?_concat, ← h, store]
    cases hold : peaks (dest entry) with
    | none => simp
    | some old =>
      dsimp only
      split_ifs with hlt
      · simp [Nat.max_eq_right hlt.le]
      · simp [Nat.max_eq_left (Nat.le_of_not_lt hlt), hold]
  · rw [if_neg hdest, ← h, store]
    cases peaks (dest entry) with
    | none => exact Function.update_of_ne (Ne.symm hdest) _ _
    | some old =>
      dsimp only
      split_ifs
      · exact Function.update_of_ne (Ne.symm hdest) _ _
      · rfl

theorem read_apply {peaks : Peaks} {dst : UInt8} {l : List ℕ} (h : peaks dst = l.max?)
    (entries : List Quadlet) :
    read entries peaks dst = (l ++ (entries.filter (dest · = dst)).map peak).max? := by
  induction entries generalizing peaks l with
  | nil => simpa [read] using h
  | cons entry entries ih =>
    have hrest := ih (store_apply h entry)
    rw [read, List.foldl_cons, ← read, hrest]
    by_cases hdest : dest entry = dst <;> simp [hdest]

/-- The map has the maxima since the destinations were last returned. -/
theorem run_apply (ops : List Op) (dst : UInt8) : run ops dst = (readSince dst ops).max? := by
  induction ops using List.reverseRecOn with
  | nil => rfl
  | append_singleton ops op ih =>
    have hrun : run (ops ++ [op]) = step (run ops) op := by simp [run]
    rw [hrun, readSince, List.rtakeWhile_concat]
    cases op with
    | read entries =>
      rw [if_pos (by rfl), List.flatMap_append, List.flatMap_singleton]
      exact read_apply ih entries
    | getPeak d =>
      by_cases hd : d = dst
      · subst hd
        simp [step, getPeak, Op.returns]
      · rw [if_pos (by simp [Op.returns, hd]), List.flatMap_append,
          List.flatMap_singleton, Op.values, List.append_nil, ← readSince, ← ih]
        exact Function.update_of_ne (Ne.symm hd) _ _
    | getPeaks => rfl

/-- A query returns the maximum of what was read since the last one that returned the
destination. -/
theorem peaks_since (ops : List Op) :
    (∀ dst, (getPeak dst (run ops)).1 = (readSince dst ops).max?.getD 0) ∧
      (getPeaks (run ops)).1 = fun dst => (readSince dst ops).max? := by
  constructor
  · intro dst
    rw [getPeak, run_apply]
  · funext dst
    exact run_apply ops dst

end PeakSpace

/-- A map from names to ids, in its order. -/
abbrev NameMap := List (String × ℤ)

namespace NameMap

def insert (name : String) (id : ℤ) : NameMap → NameMap
  | [] => [(name, id)]
  | entry :: m => if name < entry.1 then (name, id) :: entry :: m else entry :: insert name id m

def index (m : NameMap) (name : String) : ℤ × NameMap :=
  match m.lookup name with
  | some id => (id, m)
  | none => (0, m.insert name 0)

def lookUp (m : NameMap) (key : Option String) : NameMap := key.elim m fun name => (m.index name).2

def Has (m : NameMap) (key : Option String) : Prop := ∀ name ∈ key, (m.lookup name).isSome

def nameOf (m : NameMap) (id : ℤ) : String := ((m.find? (·.2 = id)).map Prod.fst).getD ""

end NameMap

structure RouterNames where
  sources : NameMap
  destinations : NameMap
  activeConfig : Option (List Route)
  mixerNbTx : ℤ
  mixerNbRx : ℤ

namespace RouterNames

variable (r : RouterNames)

def getSourceForDestination (dstname : String) : String × RouterNames :=
  match r.activeConfig with
  | none => ("", r)
  | some rcfg =>
    let (dest, destinations) := r.destinations.index dstname
    let source := RouterConfig.getSourceForDestination (UInt8.ofInt dest) rcfg
    (r.sources.nameOf source.toNat, { r with destinations := destinations })

def getDestinationsForSource (srcname : String) : List String × RouterNames :=
  match r.activeConfig with
  | none => ([], r)
  | some rcfg =>
    let (source, sources) := r.sources.index srcname
    let dests := (rcfg.filter (·.2 = UInt8.ofInt source)).map Prod.fst
    ((dests.map fun dest => r.destinations.nameOf dest.toNat).filter (· ≠ ""),
      { r with sources := sources })

def getPeakValue (dest : String) (entries : List Quadlet)
    (peaks : Peaks) : ℕ × RouterNames × Peaks :=
  let (dst, destinations) := r.destinations.index dest
  let (value, peaks) := PeakSpace.getPeak (UInt8.ofInt dst) (PeakSpace.read entries peaks)
  (value, { r with destinations := destinations }, peaks)

def getRowName (row : ℤ) : String × RouterNames :=
  if row < 0 ∨ row > r.mixerNbTx then ("Invalid", r)
  else
    let mixerDst := r.destinations.nameOf (0x20 + row)
    let (mixerSrc, r) := r.getSourceForDestination mixerDst
    (mixerDst ++ "\n(" ++ mixerSrc ++ ")", r)

def getColName (col : ℤ) : String × RouterNames :=
  if col < 0 ∨ col > r.mixerNbRx then ("Invalid", r)
  else
    let mixerSrc := r.sources.nameOf (0x20 + col)
    let (destNames, r) := r.getDestinationsForSource mixerSrc
    (mixerSrc ++ "\n(" ++ ";\n".intercalate destNames ++ ")", r)

def indexOf (m : NameMap) (name : String) : ℤ := (m.lookup name).getD (-1)

def getConnectionState (source dest : ℤ) : Bool :=
  match r.activeConfig with
  | none => false
  | some rcfg => (RouterConfig.getSourceForDestination (UInt8.ofInt dest) rcfg).toNat = source

inductive Query
  | getSourceForDestination (dstname : String)
  | getDestinationsForSource (srcname : String)
  | getPeakValue (dest : String) (entries : List Quadlet)
  | getRowName (row : ℤ)
  | getColName (col : ℤ)
  | canConnect (source dest : ℤ)
  | canConnectByName (src dst : String)
  | getConnectionState (source dest : ℤ)
  | getConnectionStateByName (src dst : String)

inductive Answer
  | name (name : String)
  | names (names : List String)
  | value (value : ℕ)
  | flag (flag : Bool)

def query (peaks : Peaks) : Query → Answer × RouterNames × Peaks
  | .getSourceForDestination dstname =>
    let (name, r) := r.getSourceForDestination dstname
    (.name name, r, peaks)
  | .getDestinationsForSource srcname =>
    let (names, r) := r.getDestinationsForSource srcname
    (.names names, r, peaks)
  | .getPeakValue dest entries =>
    let (value, r, peaks) := r.getPeakValue dest entries peaks
    (.value value, r, peaks)
  | .getRowName row =>
    let (name, r) := r.getRowName row
    (.name name, r, peaks)
  | .getColName col =>
    let (name, r) := r.getColName col
    (.name name, r, peaks)
  | .canConnect _ _ | .canConnectByName _ _ => (.flag true, r, peaks)
  | .getConnectionState source dest => (.flag (r.getConnectionState source dest), r, peaks)
  | .getConnectionStateByName src dst =>
    (.flag (r.getConnectionState (indexOf r.sources src) (indexOf r.destinations dst)), r, peaks)

def queries (s : RouterNames × Peaks) (qs : List Query) : RouterNames × Peaks :=
  qs.foldl (fun s q => (s.1.query s.2 q).2) s

/-- The source whose name is looked up with `[]`. -/
def sourceKey : Query → Option String
  | .getDestinationsForSource srcname => if r.activeConfig.isSome then some srcname else none
  | .getColName col =>
    if r.activeConfig.isSome ∧ 0 ≤ col ∧ col ≤ r.mixerNbRx then some (r.sources.nameOf (0x20 + col))
    else none
  | _ => none

/-- The destination whose name is looked up with `[]`. -/
def destinationKey : Query → Option String
  | .getSourceForDestination dstname => if r.activeConfig.isSome then some dstname else none
  | .getPeakValue dest _ => some dest
  | .getRowName row =>
    if r.activeConfig.isSome ∧ 0 ≤ row ∧ row ≤ r.mixerNbTx then
      some (r.destinations.nameOf (0x20 + row))
    else none
  | _ => none

/-- Every name that is looked up with `[]` is in its map. -/
def Knows (q : Query) : Prop :=
  r.sources.Has (r.sourceKey q) ∧ r.destinations.Has (r.destinationKey q)

end RouterNames

namespace NameMap

variable {m : NameMap} {key : Option String}

theorem length_insert (m : NameMap) (name : String) (id : ℤ) :
    (m.insert name id).length = m.length + 1 := by
  induction m with
  | nil => rfl
  | cons entry m ih =>
    unfold insert
    split_ifs <;> simp [ih]

theorem lookUp_of_has (h : m.Has key) : m.lookUp key = m := by
  cases key with
  | none => rfl
  | some name =>
    obtain ⟨id, hid⟩ := Option.isSome_iff_exists.mp (h name rfl)
    simp [lookUp, index, hid]

theorem length_lookUp (m : NameMap) (key : Option String) :
    m.length ≤ (m.lookUp key).length ∧ (¬ m.Has key → m.length < (m.lookUp key).length) := by
  by_cases h : m.Has key
  · rw [lookUp_of_has h]
    exact ⟨le_rfl, absurd h⟩
  · cases key with
    | none => exact absurd (by simp [Has]) h
    | some name =>
      cases hid : m.lookup name with
      | none => simp [lookUp, index, hid, length_insert]
      | some id =>
        refine absurd ?_ h
        rintro _ ⟨⟩
        rw [hid]
        rfl

end NameMap

namespace RouterNames

/-- What a query does to the maps. -/
theorem query_names (r : RouterNames) (peaks : Peaks) (q : Query) : (r.query peaks q).2.1 =
    { r with
      sources := r.sources.lookUp (r.sourceKey q)
      destinations := r.destinations.lookUp (r.destinationKey q) } := by
  obtain ⟨sources, destinations, activeConfig, mixerNbTx, mixerNbRx⟩ := r
  cases q with
  | getSourceForDestination dstname => cases activeConfig <;> rfl
  | getDestinationsForSource srcname => cases activeConfig <;> rfl
  | getRowName row =>
    simp only [query, getRowName, destinationKey, sourceKey]
    by_cases hrow : row < 0 ∨ row > mixerNbTx
    · rw [if_pos hrow, if_neg (by omega)]
      rfl
    · rw [if_neg hrow]
      cases activeConfig with
      | none => rfl
      | some rcfg =>
        rw [if_pos ⟨rfl, by omega⟩]
        rfl
  | getColName col =>
    simp only [query, getColName, destinationKey, sourceKey]
    by_cases hcol : col < 0 ∨ col > mixerNbRx
    · rw [if_pos hcol, if_neg (by omega)]
      rfl
    · rw [if_neg hcol]
      cases activeConfig with
      | none => rfl
      | some rcfg =>
        rw [if_pos ⟨rfl, by omega⟩]
        rfl
  | _ => rfl

def size (r : RouterNames) : ℕ := r.sources.length + r.destinations.length

theorem query_of_knows {r : RouterNames} {q : Query} (h : r.Knows q) (peaks : Peaks) :
    (r.query peaks q).2.1 = r := by
  rw [query_names, NameMap.lookUp_of_has h.1, NameMap.lookUp_of_has h.2]

theorem size_query (r : RouterNames) (peaks : Peaks) (q : Query) :
    r.size ≤ (r.query peaks q).2.1.size ∧ (¬ r.Knows q → r.size < (r.query peaks q).2.1.size) := by
  obtain ⟨hsources, hsource⟩ := r.sources.length_lookUp (r.sourceKey q)
  obtain ⟨hdestinations, hdestination⟩ := r.destinations.length_lookUp (r.destinationKey q)
  rw [query_names, size, size]
  refine ⟨Nat.add_le_add hsources hdestinations, fun h => ?_⟩
  rcases not_and_or.mp h with h | h
  · exact Nat.add_lt_add_of_lt_of_le (hsource h) hdestinations
  · exact Nat.add_lt_add_of_le_of_lt hsources (hdestination h)

theorem size_queries (s : RouterNames × Peaks) (qs : List Query) :
    s.1.size ≤ (queries s qs).1.size := by
  induction qs generalizing s with
  | nil => exact le_rfl
  | cons q qs ih => exact (size_query s.1 s.2 q).1.trans (ih _)

/-- The maps are as before, and so are all names, just if every name that is looked up with `[]` is
known. -/
theorem queries_unchanged_iff (r : RouterNames) (peaks : Peaks) (qs : List Query) :
    ((queries (r, peaks) qs).1.sources = r.sources ∧
        (queries (r, peaks) qs).1.destinations = r.destinations ∧
        ∀ id, (queries (r, peaks) qs).1.sources.nameOf id = r.sources.nameOf id ∧
          (queries (r, peaks) qs).1.destinations.nameOf id = r.destinations.nameOf id) ↔
      ∀ q ∈ qs, r.Knows q := by
  induction qs generalizing peaks with
  | nil => simp [queries]
  | cons q qs ih =>
    rw [List.forall_mem_cons]
    by_cases hq : r.Knows q
    · have hquery : (r.query peaks q).2 = (r, (r.query peaks q).2.2) :=
        Prod.ext (query_of_knows hq peaks) rfl
      rw [queries, List.foldl_cons, ← queries, hquery, ih]
      exact ⟨fun h => ⟨hq, h⟩, fun h => h.2⟩
    · refine iff_of_false ?_ fun h => hq h.1
      rintro ⟨hsources, hdestinations, -⟩
      have hgrown := ((size_query r peaks q).2 hq).trans_le (size_queries (r.query peaks q).2 qs)
      rw [size, size] at hgrown
      change (queries (r.query peaks q).2 qs).1.sources = _ at hsources
      change (queries (r.query peaks q).2 qs).1.destinations = _ at hdestinations
      rw [hsources, hdestinations] at hgrown
      exact absurd hgrown (lt_irrefl _)

/-- An unknown destination gets the id of another one, and comes first in the map. -/
theorem getPeakValue_renames :
    let r : RouterNames := ⟨[], [("Out:00", 0)], none, 0, 0⟩
    r.destinations.nameOf 0 = "Out:00" ∧
      (queries (r, fun _ => none) [.getPeakValue "None" []]).1.destinations.nameOf 0 = "None" := by
  decide

end RouterNames

end Ffado.Dice
