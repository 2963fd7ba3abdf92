import Ffado.Util.XmlCache

/-!
# Trees through the file

A tree whose names are XML names and whose texts are plain and without whitespace is rebuilt from
its file, except that of a text that the parser reports in several pieces the last one is left.
-/
namespace Ffado.Util.Xml

open XmlEvents

namespace Node

variable {children : List Node} {n : Node} {s : State}

@[elab_as_elim]
theorem induct {motive : Node → Prop}
    (mk : ∀ name cdata children, (∀ n ∈ children, motive n) → motive (.mk name cdata children))
    (n : Node) : motive n :=
  @Node.rec motive (fun ns => ∀ n ∈ ns, motive n) mk (fun _ hn => nomatch hn)
    (fun _ _ hhead htail => List.forall_mem_cons.mpr ⟨hhead, htail⟩) n

/-- A text that the layout of the file leaves as it is. -/
def SafeText (cs : Str) : Prop := PlainText cs ∧ ∀ c ∈ cs, isspace c = false

instance (cs : Str) : Decidable (SafeText cs) := @instDecidableAnd _ _ _ (List.decidableBAll _ _)

/-- Every name and every text of a tree has a property. -/
inductive All (P Q : Str → Prop) : Node → Prop
  | mk {name cdata : Str} {children : List Node} (hname : P name) (hcdata : Q cdata)
    (hchildren : ∀ n ∈ children, All P Q n) : All P Q (.mk name cdata children)

abbrev Printable : Node → Prop := All (isName · = true) SafeText

theorem rawXmlAll_eq (depth : ℕ) (ns : List Node) :
    rawXmlAll depth ns = ns.flatMap (rawXml depth) := by
  induction ns with
  | nil => rfl
  | cons n ns ih => rw [rawXmlAll, ih, List.flatMap_cons]

/-- The printed form without whitespace. -/
def compact : Node → Str
  | .mk name cdata children =>
    '<' :: name ++
      if cdata.isEmpty && children.isEmpty then ['/', '>']
      else '>' :: cdata ++ children.flatMap compact ++ '<' :: '/' :: name ++ ['>']

theorem eq_of_isspace {c : Char} (h : isspace c = true) :
    c ∈ [' ', '\t', '\n', '\x0b', '\x0c', '\r'] := by
  simp only [isspace, Bool.or_eq_true, beq_iff_eq, Bool.and_eq_true, decide_eq_true_eq] at h
  rcases h with rfl | ⟨hle, hle'⟩
  · exact List.mem_cons_self
  · rw [← Char.ofNat_toNat c]
    generalize c.toNat = k at hle hle'
    interval_cases k <;> decide

theorem not_isspace_of_isNameChar {c : Char} (h : isNameChar c = true) : isspace c = false := by
  cases hspace : isspace c with
  | false => rfl
  | true =>
    have hall : [' ', '\t', '\n', '\x0b', '\x0c', '\r'].all (!isNameChar ·) = true := by decide
    exact absurd (List.all_eq_true.mp hall c (eq_of_isspace hspace)) (by simp [h])

@[simp] theorem isspace_lt : isspace '<' = false := by decide
@[simp] theorem isspace_gt : isspace '>' = false := by decide
@[simp] theorem isspace_slash : isspace '/' = false := by decide
@[simp] theorem isspace_newline : isspace '\n' = true := by decide

theorem filter_eq_self_of_safe {cs : Str} (h : ∀ c ∈ cs, isspace c = false) :
    (cs.filter fun c => !isspace c) = cs :=
  List.filter_eq_self.mpr fun c hc => by rw [h c hc]; rfl

theorem filter_rawXml (h : n.Printable) (depth : ℕ) :
    ((n.rawXml depth).filter fun c => !isspace c) = n.compact := by
  induction h generalizing depth with
  | @mk name cdata children hname hcdata hchildren ih =>
    have hspaces : (List.replicate (depth * 2) ' ').filter (fun c => !isspace c) = [] :=
      List.filter_replicate_of_neg (by decide)
    have hnameFilter : name.filter (fun c => !isspace c) = name :=
      filter_eq_self_of_safe fun c hc => not_isspace_of_isNameChar (isNameChar_of_mem hname hc)
    have hall : ((rawXmlAll (depth + 1) children).filter fun c => !isspace c) =
        children.flatMap compact := by
      rw [rawXmlAll_eq, List.filter_flatMap]
      exact List.flatMap_congr fun n hn => ih n hn _
    rw [rawXml, compact]
    by_cases hempty : (cdata.isEmpty && children.isEmpty) = true
    · rw [if_pos hempty, if_pos hempty]
      simp [hspaces, hnameFilter]
    · rw [if_neg hempty, if_neg hempty]
      by_cases hchildren : children.isEmpty = true
      · rw [List.isEmpty_iff.mp hchildren]
        simp [hspaces, hnameFilter, filter_eq_self_of_safe hcdata.2]
      · rw [if_neg hchildren]
        simp [hspaces, hnameFilter, filter_eq_self_of_safe hcdata.2, hall]

/-- What is reported of the content of an element. -/
def textEvents (cdata : Str) : List Event := if cdata.isEmpty then [] else [.text cdata]

def events : Node → List Event
  | .mk name cdata children =>
    .start name :: textEvents cdata ++ children.flatMap events ++ [.stop]

def lexemes : Node → ℕ
  | .mk _ cdata children =>
    if cdata.isEmpty && children.isEmpty then 1
    else 1 + (textEvents cdata).length + (children.map lexemes).sum + 1

theorem emit_append (evs evs' : List Event) (r : List Event × Bool) :
    emit (evs ++ evs') r = emit evs (emit evs' r) := by
  simp [emit]

theorem parse_textEvents {cdata : Str} (h : PlainText cdata) (hs : s.stack ≠ [])
    (fuel : ℕ) (rest : Str) :
    parse (fuel + (textEvents cdata).length) s (cdata ++ '<' :: rest) =
      emit (textEvents cdata) (parse fuel s ('<' :: rest)) := by
  cases cdata with
  | nil => rfl
  | cons c cs => exact parse_text h (List.cons_ne_nil c cs) hs fuel rest

/-- Behind the first element the state is as before. -/
theorem parse_children (hs : s.canOpen = true) (hstarted : s.started = true)
    (ih : ∀ n ∈ children, ∀ (s : State), s.canOpen = true → ∀ (fuel : ℕ) (rest : Str),
      parse (fuel + n.lexemes) s (n.compact ++ rest) =
      emit n.events (parse fuel { s with started := true } rest))
    (fuel : ℕ) (rest : Str) :
    parse (fuel + (children.map lexemes).sum) s (children.flatMap compact ++ rest) =
      emit (children.flatMap events) (parse fuel s rest) := by
  induction children with
  | nil => rfl
  | cons n ns ihns =>
    have hseen : { s with started := true } = s := by rw [← hstarted]
    rw [List.map_cons, List.sum_cons, List.flatMap_cons, List.flatMap_cons, List.append_assoc,
      Nat.add_comm n.lexemes, ← Nat.add_assoc, ih n List.mem_cons_self s hs, hseen,
      ihns fun m hm => ih m (List.mem_cons_of_mem n hm), emit_append]

theorem exists_tag (name : Str) (children : List Node) (rest : Str) :
    ∃ cs, children.flatMap compact ++ '<' :: '/' :: name ++ rest = '<' :: cs := by
  cases children with
  | nil => exact ⟨_, rfl⟩
  | cons n ns =>
    obtain ⟨name', cdata, children⟩ := n
    rw [List.flatMap_cons, compact]
    exact ⟨_, rfl⟩

theorem parse_compact (h : n.Printable) (hs : s.canOpen = true) (fuel : ℕ) (rest : Str) :
    parse (fuel + n.lexemes) s (n.compact ++ rest) =
      emit n.events (parse fuel { s with started := true } rest) := by
  induction h generalizing s fuel rest with
  | @mk name cdata children hname hcdata hchildren ih =>
    rw [compact, lexemes, events]
    by_cases hempty : (cdata.isEmpty && children.isEmpty) = true
    · rw [if_pos hempty, if_pos hempty, List.append_assoc]
      rw [Bool.and_eq_true, List.isEmpty_iff, List.isEmpty_iff] at hempty
      rw [hempty.1, hempty.2]
      exact parse_emptyTag hname hs fuel rest
    · rw [if_neg hempty, if_neg hempty]
      have hpush : (s.push name).stack ≠ [] := List.cons_ne_nil name s.stack
      obtain ⟨cs, hcs⟩ := exists_tag name children ('>' :: rest)
      calc parse (fuel + (1 + (textEvents cdata).length + (children.map lexemes).sum + 1)) s _
          = parse (fuel + 1 + (children.map lexemes).sum + (textEvents cdata).length + 1) s
              ('<' :: name ++ '>' :: (cdata ++ '<' :: cs)) := by
            rw [← hcs]
            congr 1
            · omega
            · simp
        _ = emit [.start name] (emit (textEvents cdata)
              (parse (fuel + 1 + (children.map lexemes).sum) (s.push name) ('<' :: cs))) := by
            rw [parse_openTag hname hs, parse_textEvents hcdata.1 hpush]
        _ = emit [.start name] (emit (textEvents cdata) (emit (children.flatMap events)
              (parse (fuel + 1) (s.push name) ('<' :: '/' :: name ++ '>' :: rest)))) := by
            rw [← hcs, List.append_assoc, parse_children rfl rfl fun n hn s hs => ih n hn hs]
        _ = _ := by
            rw [State.push, parse_closeTag hname, ← emit_append, ← emit_append, ← emit_append]
            rfl

theorem lexemes_le_length : n.lexemes ≤ n.compact.length := by
  induction n using Node.induct with
  | mk name cdata children ih =>
    have hsum : (children.map lexemes).sum ≤ (children.flatMap compact).length := by
      rw [List.length_flatMap]
      exact List.sum_le_sum ih
    have htext : (textEvents cdata).length ≤ cdata.length := by
      cases cdata with
      | nil => exact le_rfl
      | cons c cs => exact Nat.succ_le_succ (Nat.zero_le _)
    rw [lexemes, compact]
    split_ifs
    · simp
    · simp only [List.length_append, List.length_cons]
      omega

theorem parseText_compact (h : n.Printable) : parseText n.compact = (n.events, true) := by
  have hle := @lexemes_le_length n
  have hfuel : n.compact.length + 1 = n.compact.length - n.lexemes + 1 + n.lexemes := by omega
  have hparse := parse_compact h (s := ⟨[], false⟩) rfl (n.compact.length - n.lexemes + 1) []
  rw [List.append_nil, ← hfuel] at hparse
  rw [parseText, hparse, parse]
  simp [emit]

@[simp] theorem add_mk (name cdata : Str) (children : List Node) (n : Node) :
    (mk name cdata children).add n = mk name cdata (children ++ [n]) := rfl

theorem atDepth_atDepth (depth : ℕ) (f g : Node → Node) (n : Node) :
    (n.atDepth depth f).atDepth depth g = n.atDepth depth fun m => g (f m) := by
  induction depth generalizing n with
  | zero => rfl
  | succ depth ih =>
    obtain ⟨name, cdata, children⟩ := n
    rw [atDepth, atDepth, atDepth]
    congr 1
    rcases List.eq_nil_or_concat children with rfl | ⟨ns, m, rfl⟩
    · rfl
    · rw [List.concat_eq_append, List.modifyLast_concat, List.modifyLast_concat,
        List.modifyLast_concat, ih]

/-- What is changed one level below a node that has just been added. -/
theorem atDepth_succ_add (depth : ℕ) (f : Node → Node) (child n : Node) :
    (n.atDepth depth (·.add child)).atDepth (depth + 1) f = n.atDepth depth (·.add (f child)) := by
  induction depth generalizing n with
  | zero =>
    obtain ⟨name, cdata, children⟩ := n
    change mk name cdata ((children ++ [child]).modifyLast (atDepth 0 f)) = _
    rw [List.modifyLast_concat]
    rfl
  | succ depth ih =>
    obtain ⟨name, cdata, children⟩ := n
    rw [atDepth, atDepth, atDepth]
    congr 1
    rcases List.eq_nil_or_concat children with rfl | ⟨ns, m, rfl⟩
    · rfl
    · rw [List.concat_eq_append, List.modifyLast_concat, List.modifyLast_concat,
        List.modifyLast_concat, ih]

/-- What is left of a text. -/
def lastPiece (sp : Splitter) (cdata : Str) : Str := (sp.split cdata).getLastD []

/-- The tree with what is left of its texts. -/
def restored (sp : Splitter) : Node → Node
  | .mk name cdata children => .mk name (lastPiece sp cdata) (children.map (restored sp))

theorem trimmed_of_safe {behind chars : Str} (hne : chars ≠ [])
    (h : ∀ c ∈ chars, isspace c = false) : trimmed behind chars = chars := by
  have hy : (chars.reverse.dropWhile isspace).length - 1 + 1 = chars.length := by
    obtain ⟨c, cs, hrev⟩ := List.exists_cons_of_ne_nil (List.reverse_ne_nil_iff.mpr hne)
    have hc : c ∈ chars := List.mem_reverse.mp (hrev ▸ List.mem_cons_self)
    rw [hrev, List.dropWhile_cons_of_neg (by simp [h c hc]), ← hrev, List.length_reverse]
    exact Nat.succ_pred_eq_of_pos (List.length_pos_of_ne_nil hne)
  have hx : (chars.takeWhile isspace).length = 0 := by
    obtain ⟨c, cs, rfl⟩ := List.exists_cons_of_ne_nil hne
    rw [List.takeWhile_cons_of_neg (by simp [h c List.mem_cons_self])]
    rfl
  rw [trimmed, hy, hx, Nat.zero_min, List.drop_zero, List.take_left]

variable {expat : Expat}

@[simp] theorem setChildText_cdata (n : Node) : n.setChildText n.cdata = n := by
  obtain ⟨name, cdata, children⟩ := n
  rfl

theorem setChildText_setChildText (text text' : Str) (n : Node) :
    (n.setChildText text).setChildText text' = n.setChildText text' := by
  obtain ⟨name, cdata, children⟩ := n
  rfl

@[simp] theorem cdata_setChildText (text : Str)
    (n : Node) : (n.setChildText text).cdata = text := by
  obtain ⟨name, cdata, children⟩ := n
  rfl

theorem atDepth_id (depth : ℕ) (n : Node) : (n.atDepth depth fun m => m) = n := by
  induction depth generalizing n with
  | zero => rfl
  | succ depth ih =>
    obtain ⟨name, cdata, children⟩ := n
    rw [atDepth]
    congr 1
    rcases List.eq_nil_or_concat children with rfl | ⟨ns, m, rfl⟩
    · rfl
    · rw [List.concat_eq_append, List.modifyLast_concat, ih]

theorem foldl_pieces {pieces : List Str}
    (hpieces : ∀ p ∈ pieces, p ≠ [] ∧ ∀ c ∈ p, isspace c = false) (root : Node) (depth : ℕ) :
    (pieces.map Event.text).foldl expat.handle ⟨some root, depth + 1⟩ =
      ⟨some (root.atDepth depth fun n => n.setChildText (pieces.getLastD n.cdata)), depth + 1⟩ := by
  induction pieces generalizing root with
  | nil =>
    simp only [List.getLastD_nil, setChildText_cdata, atDepth_id]
    rfl
  | cons p ps ih =>
    obtain ⟨hne, hspace⟩ := hpieces p List.mem_cons_self
    have hstep : expat.handle ⟨some root, depth + 1⟩ (.text p) =
        ⟨some (root.atDepth depth (.setChildText p)), depth + 1⟩ := by
      rw [Expat.handle, Document.characterDataHandler, trimmed_of_safe hne hspace]
      rfl
    rw [List.map_cons, List.foldl_cons, hstep,
      ih (fun q hq => hpieces q (List.mem_cons_of_mem p hq)), atDepth_atDepth]
    simp only [cdata_setChildText, setChildText_setChildText, List.getLastD_cons]

theorem expand_append (sp : Splitter) (evs evs' : List Event) :
    expand sp (evs ++ evs') = expand sp evs ++ expand sp evs' := List.flatMap_append

/-- The node with the children of an element behind its own. -/
def addAll (sp : Splitter) (children : List Node) (n : Node) : Node :=
  children.foldl (fun m child => m.add (child.restored sp)) n

theorem addAll_mk (sp : Splitter) (name cdata : Str) (children children' : List Node) :
    addAll sp children (mk name cdata children') =
      mk name cdata (children' ++ children.map (restored sp)) := by
  induction children generalizing children' with
  | nil => rw [List.map_nil, List.append_nil]; rfl
  | cons child children ih =>
    rw [addAll, List.foldl_cons, add_mk]
    change addAll sp children _ = _
    rw [ih, List.append_assoc]
    rfl

/-- What is reported of the element adds it to the open one. -/
def Adds (expat : Expat) (n : Node) : Prop := ∀ (root : Node) (depth : ℕ),
  (expand expat.splitter n.events).foldl expat.handle ⟨some root, depth + 1⟩ =
    ⟨some (root.atDepth depth (·.add (n.restored expat.splitter))), depth + 1⟩

theorem foldl_children (ih : ∀ n ∈ children, n.Adds expat) (root : Node) (depth : ℕ) :
    (expand expat.splitter (children.flatMap events)).foldl expat.handle ⟨some root, depth + 1⟩ =
      ⟨some (root.atDepth depth (addAll expat.splitter children)), depth + 1⟩ := by
  induction children generalizing root with
  | nil =>
    rw [show addAll expat.splitter [] = fun m => m from rfl, atDepth_id]
    rfl
  | cons n ns ihns =>
    rw [List.flatMap_cons, expand_append, List.foldl_append, ih n List.mem_cons_self,
      ihns fun m hm => ih m (List.mem_cons_of_mem n hm), atDepth_atDepth]
    rfl

theorem foldl_content {cdata : Str} (hcdata : SafeText cdata)
    (ih : ∀ n ∈ children, n.Adds expat) (root : Node) (depth : ℕ) :
    (expand expat.splitter (textEvents cdata ++ children.flatMap events)).foldl expat.handle
        ⟨some root, depth + 1⟩ =
      ⟨some (root.atDepth depth fun n => addAll expat.splitter children
        (n.setChildText ((expat.splitter.split cdata).getLastD n.cdata))), depth + 1⟩ := by
  have hpieces : ∀ p ∈ expat.splitter.split cdata, p ≠ [] ∧ ∀ c ∈ p, isspace c = false := by
    intro p hp
    refine ⟨fun hnil => expat.splitter.nonempty cdata (hnil ▸ hp), fun c hc => ?_⟩
    exact hcdata.2 c ((expat.splitter.infix_of_mem hp).subset hc)
  have hexpand : expand expat.splitter (textEvents cdata) =
      (expat.splitter.split cdata).map Event.text := by
    cases cdata with
    | nil => rw [expat.splitter.split_nil]; rfl
    | cons c cs => exact List.append_nil _
  rw [expand_append, List.foldl_append, hexpand, foldl_pieces hpieces, foldl_children ih,
    atDepth_atDepth]

theorem foldl_events (h : n.Printable) : n.Adds expat := by
  induction h with
  | @mk name cdata children hname hcdata hchildren ih =>
    intro root depth
    rw [events, List.cons_append, List.cons_append, List.append_assoc, ← List.append_assoc]
    change (expand expat.splitter ((textEvents cdata ++ children.flatMap events) ++ [.stop])).foldl
      expat.handle ⟨some (root.atDepth depth (·.add (.mk name [] []))), depth + 1 + 1⟩ = _
    rw [expand_append, List.foldl_append, foldl_content hcdata ih, atDepth_succ_add]
    change Document.mk (some _) (depth + 1) = _
    rw [setChildText, addAll_mk, restored]
    rfl

end Node

open Node in
/-- What a reader finds in a file. -/
theorem Document.loadFromFile_toXml (expat : Expat) {n : Node} (h : n.Printable) :
    loadFromFile expat n.toXml = ⟨some (n.restored expat.splitter), 0⟩ := by
  rw [loadFromFile, toXml, filter_rawXml h, fromXml, parseText_compact h, report, if_pos rfl]
  cases h with
  | @mk name cdata children hname hcdata hchildren =>
    rw [events, List.cons_append, List.cons_append, List.append_assoc, ← List.append_assoc]
    change (expand expat.splitter ((textEvents cdata ++ children.flatMap events) ++ [.stop])).foldl
      expat.handle ⟨some (.mk name [] []), 0 + 1⟩ = _
    rw [expand_append, List.foldl_append, foldl_content hcdata fun n hn =>
      foldl_events (hchildren n hn)]
    change Document.mk (some (addAll _ _ (setChildText _ _))) 0 = _
    rw [setChildText, addAll_mk, restored]
    rfl

end Ffado.Util.Xml
