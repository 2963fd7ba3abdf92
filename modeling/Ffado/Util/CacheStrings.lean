import Ffado.Util.XmlPaths

/-!
# Strings through the cache

A string that is written under a path and saved is found there again just if the printer, which
escapes nothing, the file reader, which drops the whitespace, and the handler, which keeps the last
piece of a text, all leave it alone. A string with a blank, a `<`, an `&` or the end of a section
never comes back: whatever a reader finds is a piece of the file (`Piece`), and none is that string.
-/
namespace Ffado.Util.Xml

open XmlEvents

variable {xml : Str}

structure PrintableText where
  chars : Str
  printable : ∀ c ∈ chars, 32 ≤ c.toNat ∧ c.toNat ≤ 126

/-- The version of a build, such as `2.4.9999-4184M`. -/
structure Version where
  chars : Str
  nameChars : ∀ c ∈ chars, isNameChar c = true

namespace Node

variable {P Q : Str → Prop} {n : Node}

variable {m : Node} {f : Node → Node} {key : Str}

theorem All.atDepth (hf : ∀ m : Node, m.All P Q → (f m).All P Q) (depth : ℕ) (h : n.All P Q) :
    (n.atDepth depth f).All P Q := by
  induction depth generalizing n with
  | zero => exact hf n h
  | succ depth ih =>
    cases h with
    | @mk name cdata children hname hcdata hchildren =>
      refine .mk hname hcdata ?_
      rcases List.eq_nil_or_concat children with rfl | ⟨ns, m, rfl⟩
      · exact hchildren
      · rw [List.concat_eq_append] at hchildren ⊢
        rw [List.modifyLast_concat]
        intro k hk
        rcases List.mem_append.mp hk with hk | hk
        · exact hchildren k (List.mem_append_left _ hk)
        · rw [List.mem_singleton.mp hk]
          exact ih (hchildren m (List.mem_append_right _ List.mem_cons_self))

theorem All.add {child : Node} (h : n.All P Q) (hchild : child.All P Q) :
    (n.add child).All P Q := by
  cases h with
  | @mk name cdata children hname hcdata hchildren =>
    refine .mk hname hcdata fun k hk => ?_
    rcases List.mem_append.mp hk with hk | hk
    · exact hchildren k hk
    · rw [List.mem_singleton.mp hk]
      exact hchild

theorem All.setChildText {text : Str} (h : n.All P Q) (htext : Q text) :
    (n.setChildText text).All P Q := by
  cases h with
  | mk hname hcdata hchildren => exact .mk hname htext hchildren

theorem All.leaf {name cdata : Str} (hname : P name) (hcdata : Q cdata) :
    (Node.mk name cdata []).All P Q :=
  .mk hname hcdata nofun

theorem mem_modifyNamed {fresh : Node} {ns : List Node}
    (h : m ∈ (modifyNamed key f ns).getD (ns ++ [fresh])) :
    m ∈ ns ∨ (∃ k ∈ ns, m = f k) ∨ m = fresh := by
  induction ns with
  | nil => exact .inr (.inr (List.mem_singleton.mp h))
  | cons k ns ih =>
    by_cases hk : k.name = key
    · rw [modifyNamed, if_pos hk, Option.getD_some] at h
      rcases List.mem_cons.mp h with rfl | h
      · exact .inr (.inl ⟨k, List.mem_cons_self, rfl⟩)
      · exact .inl (List.mem_cons_of_mem k h)
    · rw [getD_modifyNamed_cons hk] at h
      rcases List.mem_cons.mp h with rfl | h
      · exact .inl List.mem_cons_self
      · rcases ih h with h | ⟨j, hj, rfl⟩ | rfl
        · exact .inl (List.mem_cons_of_mem k h)
        · exact .inr (.inl ⟨j, List.mem_cons_of_mem k hj, rfl⟩)
        · exact .inr (.inr rfl)

theorem All.insert {text : Str} (htext : Q text) (hnil : Q []) {tokens : List Str}
    (htokens : ∀ token ∈ tokens, P token) (h : n.All P Q) : (n.insert text tokens).All P Q := by
  induction tokens generalizing n with
  | nil => exact h
  | cons token tokens ih =>
    have htoken := htokens token List.mem_cons_self
    have htail : ∀ token ∈ tokens, P token := fun t ht => htokens t (List.mem_cons_of_mem token ht)
    cases tokens with
    | nil => exact h.add (.leaf htoken htext)
    | cons token' tokens =>
      cases h with
      | @mk name cdata children hname hcdata hchildren =>
        rw [Node.insert]
        · refine .mk hname hcdata fun m hm => ?_
          rcases mem_modifyNamed hm with hm | ⟨k, hk, rfl⟩ | rfl
          · exact hchildren m hm
          · exact ih htail (hchildren k hk)
          · exact ih htail (.leaf htoken hnil)
        · simp

theorem All.of_mem_named (h : n.All P Q) (hm : m ∈ n.named key) :
    P key ∧ m.All P Q := by
  rw [named] at hm
  split_ifs at hm
  · cases hm
  · obtain ⟨hmem, hname⟩ := List.mem_filter.mp hm
    rw [decide_eq_true_eq] at hname
    cases h with
    | mk _ _ hchildren =>
      have hall := hchildren m hmem
      refine ⟨?_, hall⟩
      cases hall with
      | mk hm' => exact hname ▸ hm'

theorem All.of_mem_findParts {keys : List Str} (h : n.All P Q) (hm : m ∈ n.findParts keys) :
    (∀ key ∈ keys, P key) ∧ m.All P Q := by
  induction keys generalizing n with
  | nil => cases hm
  | cons key keys ih =>
    cases keys with
    | nil =>
      obtain ⟨hkey, hall⟩ := h.of_mem_named hm
      exact ⟨List.forall_mem_singleton.mpr hkey, hall⟩
    | cons key' keys =>
      rw [findParts] at hm
      · obtain ⟨k, hk, hm⟩ := List.mem_flatMap.mp hm
        obtain ⟨hkey, hall⟩ := h.of_mem_named hk
        obtain ⟨hkeys, hm⟩ := ih hall hm
        exact ⟨List.forall_mem_cons.mpr ⟨hkey, hkeys⟩, hm⟩
      · simp

/-- How often a character stands in the texts of a tree. -/
def charCount (a : Char) : Node → ℕ
  | .mk _ cdata children => cdata.count a + (children.map (charCount a)).sum

/-- A character that is neither markup, layout nor part of a name. -/
def OnlyInTexts (a : Char) : Prop := isNameChar a = false ∧ a ∉ ['<', '>', '/', '\n', ' ']

theorem count_rawXml {a : Char} (ha : OnlyInTexts a) (h : n.All (isName · = true) Q) (depth : ℕ) :
    (n.rawXml depth).count a = n.charCount a := by
  induction h generalizing depth with
  | @mk name cdata children hname hcdata hchildren ih =>
    obtain ⟨hchar, hmarkup⟩ := ha
    simp only [List.mem_cons, List.not_mem_nil, or_false, not_or] at hmarkup
    obtain ⟨hlt, hgt, hslash, hnewline, hspace⟩ := hmarkup
    have hnameCount : name.count a = 0 := by
      refine List.count_eq_zero_of_not_mem fun hmem => ?_
      rw [isNameChar_of_mem hname hmem] at hchar
      cases hchar
    have hspaces : (List.replicate (depth * 2) ' ').count a = 0 := by
      rw [List.count_replicate, if_neg]
      simpa using Ne.symm hspace
    have hall : (rawXmlAll (depth + 1) children).count a = (children.map (charCount a)).sum := by
      rw [rawXmlAll_eq, List.count_flatMap]
      exact congrArg List.sum (List.map_congr_left fun n hn => ih n hn _)
    rw [rawXml, charCount]
    by_cases hempty : (cdata.isEmpty && children.isEmpty) = true
    · rw [Bool.and_eq_true, List.isEmpty_iff, List.isEmpty_iff] at hempty
      rw [hempty.1, hempty.2]
      simp [hspaces, hnameCount, Ne.symm hlt, Ne.symm hgt, Ne.symm hslash,
        Ne.symm hnewline]
    · rw [if_neg hempty]
      by_cases hchildren : children.isEmpty = true
      · rw [List.isEmpty_iff.mp hchildren]
        simp [hspaces, hnameCount, Ne.symm hlt, Ne.symm hgt, Ne.symm hslash,
          Ne.symm hnewline]
      · rw [if_neg hchildren]
        simp [hspaces, hnameCount, hall, Ne.symm hlt, Ne.symm hgt, Ne.symm hslash,
          Ne.symm hnewline]

theorem sum_modifyNamed {g : Node → ℕ} {k : ℕ} (hf : ∀ n, g (f n) = g n + k) {fresh : Node}
    (hfresh : g fresh = k) (ns : List Node) :
    (((modifyNamed key f ns).getD (ns ++ [fresh])).map g).sum = (ns.map g).sum + k := by
  induction ns with
  | nil => simp [modifyNamed, hfresh]
  | cons n ns ih =>
    by_cases hn : n.name = key
    · rw [modifyNamed, if_pos hn, Option.getD_some, List.map_cons, List.sum_cons, hf, List.map_cons,
        List.sum_cons]
      omega
    · rw [getD_modifyNamed_cons hn, List.map_cons, List.sum_cons, ih, List.map_cons, List.sum_cons]
      omega

theorem charCount_insert (a : Char) (text : Str)
    {tokens : List Str} (hne : tokens ≠ []) (n : Node) :
      (n.insert text tokens).charCount a = n.charCount a + text.count a := by
  induction tokens generalizing n with
  | nil => exact absurd rfl hne
  | cons token tokens ih =>
    obtain ⟨name, cdata, children⟩ := n
    cases tokens with
    | nil =>
      rw [insert, add_mk, charCount, charCount]
      simp [charCount]
      omega
    | cons token' tokens =>
      have hstep := ih (List.cons_ne_nil token' tokens)
      have hfresh : (insert text (token' :: tokens) (mk token [] [])).charCount a =
        text.count a := by
        rw [hstep]
        simp [charCount]
      rw [insert, charCount, charCount, sum_modifyNamed hstep hfresh]
      · omega
      · simp

end Node

theorem trimmed_singleton (behind : Str) (c : Char) : trimmed behind [c] = [c] := by
  have hy : ([c].reverse.dropWhile isspace).length - 1 = 0 := by
    rw [List.reverse_singleton, List.dropWhile_cons]
    split_ifs <;> rfl
  rw [trimmed, hy, Nat.min_zero]
  rfl

theorem trimmed_of_piece {behind d : Str} (hxml : ∀ c ∈ xml, isspace c = false) (h : Piece xml d)
    (hne : d ≠ []) : trimmed behind d = d := by
  rcases h with ⟨hplain, -⟩ | ⟨hlength, -⟩ | ⟨hmem, -⟩
  · exact Node.trimmed_of_safe hne fun c hc => hxml c (hplain c hc).2
  · obtain ⟨c, cs, rfl⟩ := List.exists_cons_of_ne_nil hne
    obtain rfl : cs = [] := by simpa using hlength
    exact trimmed_singleton behind c
  · exact Node.trimmed_of_safe hne fun c hc => hxml c (hmem c hc)

def Document.Sound (xml : Str) (doc : Document) : Prop :=
  ∀ root ∈ doc.root, Node.All (isName · = true) (fun d => d = [] ∨ Piece xml d) root

theorem Document.Sound.handle {expat : Expat} (hxml : ∀ c ∈ xml, isspace c = false) {doc : Document}
    (h : doc.Sound xml) {e : Event} (he : e.Sound xml) (hne : e ≠ .text []) :
    (expat.handle doc e).Sound xml := by
  intro root hroot
  cases e with
  | start name =>
    have hleaf : Node.All (isName · = true) (fun d => d = [] ∨ Piece xml d) (.mk name [] []) :=
      .leaf he (.inl rfl)
    rw [Expat.handle, Document.startElementHandler] at hroot
    cases hdoc : doc.root with
    | none =>
      rw [hdoc] at hroot
      rw [← Option.mem_some.mp hroot]
      exact hleaf
    | some old =>
      rw [hdoc] at hroot
      rw [← Option.mem_some.mp hroot]
      exact .atDepth (fun m hm => hm.add hleaf) _ (h old hdoc)
  | stop => exact h root hroot
  | text data =>
    obtain ⟨old, hold, rfl⟩ := Option.mem_map.mp hroot
    refine .atDepth (fun m hm => hm.setChildText (.inr ?_)) _ (h old hold)
    rw [trimmed_of_piece hxml he fun hnil => hne (congrArg Event.text hnil)]
    exact he

theorem Document.sound_fromXml (expat : Expat) (hxml : ∀ c ∈ xml, isspace c = false) :
    (fromXml expat xml).Sound xml := by
  have hfold : ∀ (evs : List Event) (doc : Document), doc.Sound xml →
      (∀ e ∈ evs, e.Sound xml ∧ e ≠ .text []) → (evs.foldl expat.handle doc).Sound xml := by
    intro evs
    induction evs with
    | nil => exact fun doc h _ => h
    | cons e evs ih =>
      intro doc h hevs
      obtain ⟨he, hne⟩ := hevs e List.mem_cons_self
      exact ih _ (h.handle hxml he hne) fun e' he' => hevs e' (List.mem_cons_of_mem e he')
  exact hfold _ _ nofun fun e he => sound_of_mem_report he

namespace XmlDeserialize

variable {path : Str}

theorem read_eq_some {text : Str} {doc : Document} (h : read path doc = some text) :
    ∃ root ∈ doc.root, ∃ n ∈ root.find path, n.cdata = text := by
  obtain ⟨root, hroot, h⟩ := Option.bind_eq_some_iff.mp h
  obtain ⟨n, hn, h⟩ := Option.bind_eq_some_iff.mp h
  exact ⟨root, hroot, n, List.mem_of_mem_head? hn, Option.some.inj h⟩

theorem sound_of_read {expat : Expat} {file text : Str}
    (h : read path (Document.loadFromFile expat file) = some text) :
    (∀ part ∈ Node.components path, isName part = true) ∧
      (text = [] ∨ Piece (file.filter fun c => !isspace c) text) := by
  have hxml : ∀ c ∈ file.filter (fun c => !isspace c), isspace c = false := fun c hc => by
    simpa using (List.mem_filter.mp hc).2
  obtain ⟨root, hroot, n, hn, rfl⟩ := read_eq_some h
  obtain ⟨hparts, hall⟩ := (Document.sound_fromXml expat hxml root hroot).of_mem_findParts hn
  refine ⟨hparts, ?_⟩
  cases hall with
  | mk _ hcdata _ => exact hcdata

theorem read_restored {root : Node} {sp : Splitter} :
    read path ⟨some (root.restored sp), 0⟩ =
      ((root.texts (Node.components path)).map (Node.lastPiece sp)).head? := by
  rw [← Node.texts_restored, Node.texts, List.head?_map]
  rw [read]
  cases hfind : ((root.restored sp).findParts (Node.components path)).head? with
  | _ => simp [Node.find, hfind]

end XmlDeserialize

namespace XmlSerialize

theorem ne_nil_of_isName {name : Str} (h : isName name = true) : name ≠ [] := by
  rintro rfl
  cases h

theorem components_ne_nil (path : Str) : Node.components path ≠ [] := by
  cases path with
  | nil => exact List.cons_ne_nil _ _
  | cons c cs =>
    rw [Node.components]
    split_ifs
    · exact List.cons_ne_nil _ _
    · split <;> exact List.cons_ne_nil _ _

theorem write_eq {path : Str} (h : ∀ part ∈ Node.components path, isName part = true) (text : Str)
    (root : Node) : write path text root = (root.insert text (Node.components path), true) := by
  have htokens : tokenize path = Node.components path :=
    List.filter_eq_self.mpr fun part hpart => by simpa using ne_nil_of_isName (h part hpart)
  rw [write, htokens]
  cases hparts : Node.components path with
  | nil => exact absurd hparts (components_ne_nil path)
  | cons part parts => rfl

theorem safeText_of_isNameChar {cs : Str} (h : ∀ c ∈ cs, isNameChar c = true) :
    Node.SafeText cs := by
  have hbracket : ']' ∉ cs := fun hmem => absurd (h _ hmem) (by decide)
  have hplain : ∀ c, isNameChar c = true → isPlain c = true := by
    intro c hc
    rw [isPlain, Bool.and_eq_true, bne_iff_ne, bne_iff_ne]
    constructor <;> rintro rfl <;> exact absurd hc (by decide)
  refine ⟨⟨fun c hc => hplain c (h c hc), fun hend => hbracket (hend.subset ?_)⟩, ?_⟩
  · exact List.mem_cons_self
  · exact fun c hc => Node.not_isspace_of_isNameChar (h c hc)

theorem printable_create (version : Version) : (create version.chars).Printable := by
  refine .mk (by decide) (by decide) fun n hn => ?_
  rw [List.mem_singleton.mp hn]
  exact .leaf (by decide) (safeText_of_isNameChar version.nameChars)

theorem texts_create (version : Str) (keys : List Str) :
    (create version).texts keys = if keys = [versionName] then [version] else [] := by
  have hnamed : ∀ key, (create version).named key =
      if key = versionName then [.mk versionName version []] else [] := by
    intro key
    by_cases hkey : key = versionName
    · rw [if_pos hkey, hkey]
      rfl
    · rw [if_neg hkey, Node.named]
      split_ifs
      · rfl
      · simp [create, Ne.symm hkey]
  rcases keys with _ | ⟨key, _ | ⟨key', keys⟩⟩
  · simp
  · rw [Node.texts_singleton, hnamed]
    by_cases hkey : key = versionName <;> simp [hkey]
  · rw [Node.texts_cons_cons, hnamed]
    by_cases hkey : key = versionName <;> simp [hkey, Node.texts_leaf]

theorem charCount_create {a : Char} (ha : isNameChar a = false) (version : Version) :
    (create version.chars).charCount a = 0 := by
  have hcount : version.chars.count a = 0 := by
    refine List.count_eq_zero_of_not_mem fun hmem => ?_
    rw [version.nameChars a hmem] at ha
    cases ha
  simp [create, Node.charCount, hcount]

/-- The file of a writer that has written one string. -/
def saved (version : Version) (path text : Str) : Str :=
  (write path text (create version.chars)).1.toXml

theorem count_saved {a : Char} (ha : Node.OnlyInTexts a) (version : Version) {path : Str}
    (h : ∀ part ∈ Node.components path, isName part = true) (text : Str) :
    (saved version path text).count a = text.count a := by
  have hall : ((create version.chars).insert text (Node.components path)).All (isName · = true)
      fun _ => True :=
    .insert trivial trivial h (.mk (by decide) trivial fun n hn => by
      rw [List.mem_singleton.mp hn]
      exact .leaf (by decide) trivial)
  rw [saved, write_eq h, Node.toXml, Node.count_rawXml ha hall,
    Node.charCount_insert a text (components_ne_nil path), charCount_create ha.1, Nat.zero_add]

end XmlSerialize

open XmlSerialize XmlDeserialize

section RoundTrip

variable {expat : Expat} {version : Version} {path text : Str}

/-- A string that the file changes is not found in it. -/
theorem safeText_of_read
    (h : read path (Document.loadFromFile expat (saved version path text)) = some text) :
    Node.SafeText text := by
  obtain ⟨hparts, rfl | hpiece⟩ := sound_of_read h
  · decide
  · have hcount : ∀ a, Node.OnlyInTexts a →
        ((saved version path text).filter fun c => !isspace c).count a ≤ text.count a := by
      intro a ha
      rw [← count_saved ha version hparts text]
      exact List.filter_sublist.count_le a
    have hmem : ∀ a, Node.OnlyInTexts a →
        a ∈ (saved version path text).filter (fun c => !isspace c) → a ∈ text := fun a ha hin =>
      List.count_pos_iff.mp (lt_of_lt_of_le (List.count_pos_iff.mpr hin) (hcount a ha))
    rcases hpiece with ⟨hplain, hend⟩ | ⟨hlength, hamp, hsemi⟩ | ⟨-, hbrackets⟩
    · refine ⟨⟨fun c hc => (hplain c hc).1, hend⟩, fun c hc => ?_⟩
      simpa using (List.mem_filter.mp (hplain c hc).2).2
    · -- The reference is in the string itself, which is longer than what it stands for.
      have hamp' := hmem '&' ⟨by decide, by decide⟩ hamp
      have hsemi' := hmem ';' ⟨by decide, by decide⟩ hsemi
      match text, hlength with
      | [], _ => cases hamp'
      | [c], _ =>
        rw [List.mem_singleton] at hamp' hsemi'
        exact absurd (hamp'.trans hsemi'.symm) (by decide)
    · have hle := hcount '[' ⟨by decide, by decide⟩
      omega

theorem printable_insert (hparts : ∀ part ∈ Node.components path, isName part = true)
    (htext : Node.SafeText text) :
    ((create version.chars).insert text (Node.components path)).Printable :=
  .insert htext (by decide) hparts (printable_create version)

theorem read_saved (hparts : ∀ part ∈ Node.components path, isName part = true)
    (htext : Node.SafeText text) :
    read path (Document.loadFromFile expat (saved version path text)) =
      some (Node.lastPiece expat.splitter
        (if Node.components path = [versionName] then version.chars else text)) := by
  have hunique : ∀ keys, keys <+: Node.components path → keys ≠ Node.components path →
      ((create version.chars).texts keys).length ≤ 1 := by
    intro keys _ _
    rw [texts_create]
    split_ifs <;> simp
  have htexts := @Node.texts_insert text _ (components_ne_nil path)
    (fun part hpart => ne_nil_of_isName (hparts part hpart)) _ hunique (Node.components path)
  rw [saved, write_eq hparts, Document.loadFromFile_toXml expat (printable_insert hparts htext),
    read_restored, htexts, if_pos rfl, texts_create]
  split_ifs <;> rfl

end RoundTrip

/-- The text comes back just if there is at most one piece. -/
theorem Node.lastPiece_eq_iff (sp : Splitter) (cs : Str) :
    lastPiece sp cs = cs ↔ cs = [] ∨ sp.split cs = [cs] := by
  by_cases hnil : cs = []
  · rw [hnil]
    simp [lastPiece, sp.split_nil]
  · rw [or_iff_right hnil, ← sp.getLast?_eq_some_iff, lastPiece, List.getLastD_eq_getLast?]
    cases (sp.split cs).getLast? with
    | none => simpa using Ne.symm hnil
    | some p => simp

/-- A string is read again just if its path has names only and is not that of the version, the
string has nothing in it that the file changes, and it is reported in one piece. Under the path of
the version that is what is read instead. -/
theorem XmlDeserialize.read_iff (expat : Expat) (version : Version) (path value : PrintableText) :
    read path.chars (Document.loadFromFile expat (saved version path.chars value.chars)) =
        some value.chars ↔
      (∀ part ∈ Node.components path.chars, isName part = true) ∧ Node.SafeText value.chars ∧
        if Node.components path.chars = [versionName] then
          Node.lastPiece expat.splitter version.chars = value.chars
        else value.chars = [] ∨ expat.splitter.split value.chars = [value.chars] := by
  constructor
  · intro h
    have hparts := (sound_of_read h).1
    have htext := safeText_of_read h
    refine ⟨hparts, htext, ?_⟩
    rw [read_saved hparts htext, Option.some.injEq] at h
    split_ifs at h ⊢
    · exact h
    · exact (Node.lastPiece_eq_iff _ _).mp h
  · rintro ⟨hparts, htext, hpiece⟩
    rw [read_saved hparts htext, Option.some.injEq]
    split_ifs at hpiece ⊢
    · exact hpiece
    · exact (Node.lastPiece_eq_iff _ _).mpr hpiece

/-- With a parser that splits nothing: a blank is dropped, a reference is read as what it stands
for, and a sign of markup leaves no text. -/
theorem XmlDeserialize.strings_changed :
    let expat : Expat := ⟨.whole, 6, fun _ => []⟩
    let version : Version := ⟨['2', '.', '4'], List.all_eq_true.mp (by decide)⟩
    let path : Str := ['N', 'a', 'm', 'e']
    let reading := fun value : Str =>
      read path (Document.loadFromFile expat (saved version path value))
    reading ['a', ' ', 'b'] = some ['a', 'b'] ∧
      reading ['&', 'l', 't', ';'] = some ['<'] ∧
      reading ['a', '<', 'b'] = some ['a'] := by
  decide +kernel

end Ffado.Util.Xml
