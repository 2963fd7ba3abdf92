import Ffado.Util.CacheStrings

/-!
# Numbers through the cache

Numbers that are written under paths of which none leads to another are all read again, provided
that their texts and the version are each reported in one piece. `Represents` is the invariant of
the sequence of writes: every path leads to at most one node, those of the writes to their texts,
and there are no nodes but those on the way to them.
-/
namespace Ffado.Util.Xml

open XmlEvents

variable {c : Char}

theorem isDigit_of_mem_toDigits {n : ℕ} (h : c ∈ Nat.toDigits 10 n) : c.isDigit = true :=
  Nat.isDigit_of_mem_toDigits (by decide) (by decide) h

theorem head_toDigits_ne_zero {n : ℕ} (hn : 0 < n) : (Nat.toDigits 10 n).head? ≠ some '0' := by
  induction n using Nat.strong_induction_on with
  | _ n ih =>
    by_cases hlt : n < 10
    · rw [Nat.toDigits_of_lt_base hlt]
      interval_cases n <;> decide
    · have hdiv : 0 < n / 10 := by omega
      rw [Nat.toDigits_of_base_le (by decide) (by omega), List.head?_append_of_ne_nil _
        Nat.toDigits_ne_nil]
      exact ih (n / 10) (by omega) hdiv

theorem digitValue_of_isDigit (h : c.isDigit = true) :
    digitValue c = c.toNat - 48 ∧ digitValue c < 10 := by
  have hle : c.toNat ≤ 57 := by
    simp only [Char.isDigit, Bool.and_eq_true, decide_eq_true_eq] at h
    exact h.2
  rw [digitValue, if_pos h]
  omega

theorem digitsValue_toDigits (n : ℕ) : digitsValue 10 (Nat.toDigits 10 n) = n := by
  have hfold : ∀ (cs : Str) (init : ℕ), (∀ c ∈ cs, c.isDigit = true) →
      (cs.takeWhile fun c => digitValue c < 10).foldl (fun n c => 10 * n + digitValue c) init =
        Nat.ofDigitChars 10 cs init := by
    intro cs
    induction cs with
    | nil => exact fun _ _ => Nat.ofDigitChars_nil.symm
    | cons c cs ih =>
      intro init hcs
      obtain ⟨hvalue, hlt⟩ := digitValue_of_isDigit (hcs c List.mem_cons_self)
      rw [List.takeWhile_cons_of_pos (by simpa using hlt), List.foldl_cons, Nat.ofDigitChars_cons,
        hvalue]
      exact ih _ fun d hd => hcs d (List.mem_cons_of_mem c hd)
  rw [digitsValue, hfold _ _ fun c hc => isDigit_of_mem_toDigits hc, Nat.ofDigitChars_ten_toDigits]

theorem unsignedValue_toDigits (n : ℕ) : unsignedValue (Nat.toDigits 10 n) = n := by
  rcases Nat.eq_zero_or_pos n with rfl | hn
  · decide
  · have hhead := head_toDigits_ne_zero hn
    have hvalue := digitsValue_toDigits n
    unfold unsignedValue
    split
    · next heq => simp [heq] at hhead
    · next heq => simp [heq] at hhead
    · exact hvalue

theorem signedValue_of_isDigit {cs : Str} (h : ∀ c ∈ cs, c.isDigit = true) :
    signedValue cs = unsignedValue cs := by
  unfold signedValue
  split
  · exact absurd (h '-' List.mem_cons_self) (by decide)
  · exact absurd (h '+' List.mem_cons_self) (by decide)
  · rfl

theorem not_isspace_of_isDigit (h : c.isDigit = true) : isspace c = false := by
  refine Node.not_isspace_of_isNameChar ?_
  simp [isNameChar, h]

namespace XmlSerialize

theorem numberText_cases (value : Int64) :
    (∃ n : ℕ, value.toInt = n ∧ numberText value = Nat.toDigits 10 n) ∨
      ∃ n : ℕ, value.toInt = -n ∧ numberText value = '-' :: Nat.toDigits 10 n := by
  rw [numberText]
  cases value.toInt with
  | ofNat n =>
    refine .inl ⟨n, rfl, ?_⟩
    change n.repr.toList = _
    rw [Nat.toList_repr]
  | negSucc n =>
    refine .inr ⟨n + 1, rfl, ?_⟩
    change ("-" ++ (n + 1).repr).toList = _
    rw [String.toList_append, Nat.toList_repr]
    rfl

theorem strtoll_numberText (value : Int64) : strtoll (numberText value) = value := by
  have hsigned : signedValue ((numberText value).dropWhile isspace) = value.toInt := by
    rcases numberText_cases value with ⟨n, hn, htext⟩ | ⟨n, hn, htext⟩
    · have hdrop : (Nat.toDigits 10 n).dropWhile isspace = Nat.toDigits 10 n := by
        obtain ⟨c, cs, hcs⟩ := List.exists_cons_of_ne_nil (@Nat.toDigits_ne_nil n 10)
        have hc : isspace c = false :=
          not_isspace_of_isDigit (isDigit_of_mem_toDigits (hcs ▸ List.mem_cons_self))
        rw [hcs, List.dropWhile_cons_of_neg (by simp [hc])]
      rw [htext, hn, hdrop, signedValue_of_isDigit fun c hc => isDigit_of_mem_toDigits hc,
        unsignedValue_toDigits]
    · rw [htext, hn, List.dropWhile_cons_of_neg (by decide), signedValue, unsignedValue_toDigits]
  have hlt := value.toInt_lt
  have hle := value.le_toInt
  rw [strtoll, hsigned, min_eq_right (by omega), max_eq_right (by omega), Int64.ofInt_toInt]

theorem mem_numberText {value : Int64} {c : Char} (h : c ∈ numberText value) :
    c.isDigit = true ∨ c = '-' := by
  rcases numberText_cases value with ⟨n, -, htext⟩ | ⟨n, -, htext⟩
  · rw [htext] at h
    exact .inl (isDigit_of_mem_toDigits h)
  · rw [htext] at h
    rcases List.mem_cons.mp h with rfl | h
    · exact .inr rfl
    · exact .inl (isDigit_of_mem_toDigits h)

theorem isNameChar_of_mem_numberText {value : Int64} {c : Char} (h : c ∈ numberText value) :
    isNameChar c = true := by
  rcases mem_numberText h with hdigit | rfl
  · simp [isNameChar, hdigit]
  · decide

theorem numberText_ne_nil (value : Int64) : numberText value ≠ [] := by
  rcases numberText_cases value with ⟨n, -, htext⟩ | ⟨n, -, htext⟩
  · rw [htext]
    exact Nat.toDigits_ne_nil
  · rw [htext]
    exact List.cons_ne_nil _ _

end XmlSerialize

def joined : List Str → Str
  | [] => []
  | [name] => name
  | name :: names => name ++ '/' :: joined names

namespace Node

variable {name : Str}

theorem components_of_notMem (h : '/' ∉ name) : components name = [name] := by
  induction name with
  | nil => rfl
  | cons c cs ih =>
    obtain ⟨hc, hcs⟩ := not_or.mp (mt List.mem_cons.mpr h)
    rw [components, if_neg (Ne.symm hc), ih hcs]

theorem components_append (h : '/' ∉ name) (rest : Str) :
    components (name ++ '/' :: rest) = name :: components rest := by
  induction name with
  | nil => rfl
  | cons c cs ih =>
    obtain ⟨hc, hcs⟩ := not_or.mp (mt List.mem_cons.mpr h)
    rw [List.cons_append, components, if_neg (Ne.symm hc), ih hcs]

theorem components_joined {names : List Str} (hne : names ≠ [])
    (h : ∀ name ∈ names, isName name = true) : components (joined names) = names := by
  have hslash : ∀ name ∈ names, '/' ∉ name := fun name hname hmem =>
    absurd (isNameChar_of_mem (h name hname) hmem) (by decide)
  induction names with
  | nil => exact absurd rfl hne
  | cons name names ih =>
    have hname := hslash name List.mem_cons_self
    cases names with
    | nil => exact components_of_notMem hname
    | cons name' names =>
      rw [joined, components_append hname, ih (List.cons_ne_nil _ _)
        (fun n hn => h n (List.mem_cons_of_mem name hn))
        (fun n hn => hslash n (List.mem_cons_of_mem name hn))]
      simp

theorem joined_cons {names : List Str} (hne : names ≠ []) :
    joined (name :: names) = name ++ '/' :: joined names := by
  cases names with
  | nil => exact absurd rfl hne
  | cons name' names => rfl

theorem joined_components (path : Str) : joined (components path) = path := by
  induction path with
  | nil => rfl
  | cons c cs ih =>
    rw [components]
    split_ifs with hc
    · rw [joined_cons (XmlSerialize.components_ne_nil cs), ih, hc]
      rfl
    · cases hparts : components cs with
      | nil => exact absurd hparts (XmlSerialize.components_ne_nil cs)
      | cons part parts =>
        rw [← ih, hparts]
        cases parts <;> rfl

/-- Neither path leads to the other. -/
def Apart (keys keys' : List Str) : Prop := ¬ keys <+: keys' ∧ ¬ keys' <+: keys

instance (keys keys' : List Str) : Decidable (Apart keys keys') :=
  inferInstanceAs (Decidable (_ ∧ _))

/-- The tree holds the entries and no more. -/
structure Represents (entries : List (List Str × Str)) (n : Node) : Prop where
  unique : ∀ keys, (n.texts keys).length ≤ 1
  written : ∀ e ∈ entries, n.texts e.1 = [e.2]
  exists_iff : ∀ keys, n.texts keys ≠ [] ↔ keys ≠ [] ∧ ∃ e ∈ entries, keys <+: e.1

theorem Represents.insert {entries : List (List Str × Str)} {n : Node} (h : n.Represents entries)
    {tokens : List Str} (hne : tokens ≠ []) (htokens : ∀ token ∈ tokens, token ≠ [])
    (hapart : ∀ e ∈ entries, Apart e.1 tokens) (text : Str) :
    (n.insert text tokens).Represents (entries ++ [(tokens, text)]) := by
  have htexts := @texts_insert text tokens hne htokens n fun keys _ _ => h.unique keys
  have hfresh : n.texts tokens = [] := by
    by_contra hsome
    obtain ⟨-, e, he, hpre⟩ := (h.exists_iff tokens).mp hsome
    exact (hapart e he).2 hpre
  refine ⟨fun keys => ?_, fun e he => ?_, fun keys => ?_⟩
  · rw [htexts keys]
    split_ifs with heq hnew
    · rw [heq, hfresh]
      exact le_rfl
    · exact le_rfl
    · exact h.unique keys
  · rcases List.mem_append.mp he with he | he
    · -- An earlier path is neither the new one nor on the way to it.
      have hold : ¬ e.1 <+: tokens := (hapart e he).1
      have hneq : e.1 ≠ tokens := fun heq => hold (heq ▸ List.prefix_refl _)
      rw [htexts, if_neg hneq, if_neg fun hnew => hold hnew.2.1, h.written e he]
    · rw [List.mem_singleton.mp he, htexts, if_pos rfl, hfresh]
      rfl
  · have hmem : (∃ e ∈ entries ++ [(tokens, text)], keys <+: e.1) ↔
        (∃ e ∈ entries, keys <+: e.1) ∨ keys <+: tokens := by
      simp [or_and_right, exists_or]
    rw [hmem, htexts keys]
    split_ifs with heq hnew
    · rw [heq]
      simp [hne]
    · simp [hnew.1, hnew.2.1]
    · have hold := h.exists_iff keys
      rw [hold]
      constructor
      · rintro ⟨hkeys, he⟩
        exact ⟨hkeys, .inl he⟩
      · rintro ⟨hkeys, he | hpre⟩
        · exact ⟨hkeys, he⟩
        · exact hold.mp fun hnil => hnew ⟨hkeys, hpre, hnil⟩

end Node

open Node XmlSerialize XmlDeserialize

/-- Writes of numbers under paths of names of which none leads to another or to the version. -/
structure NumberWrites where
  writes : List (List Str × Int64)
  nonempty : ∀ w ∈ writes, w.1 ≠ []
  names : ∀ w ∈ writes, ∀ name ∈ w.1, isName name = true
  apart : writes.Pairwise fun w w' => Apart w.1 w'.1
  notVersion : ∀ w ∈ writes, w.1.head? ≠ some versionName

def writeAll (writes : List (List Str × Int64)) (root : Node) : Node :=
  writes.foldl (fun root w => (writeNumber (joined w.1) w.2 root).1) root

/-- What a sequence of writes leaves in a tree that has other entries already. -/
theorem represents_writeAll {writes : List (List Str × Int64)} {entries : List (List Str × Str)}
    {root : Node} (h : root.Represents entries) (hroot : root.Printable)
    (hne : ∀ w ∈ writes, w.1 ≠ []) (hnames : ∀ w ∈ writes, ∀ name ∈ w.1, isName name = true)
    (hapart : writes.Pairwise fun w w' => Apart w.1 w'.1)
    (hentries : ∀ w ∈ writes, ∀ e ∈ entries, Apart e.1 w.1) :
    (writeAll writes root).Represents (entries ++ writes.map fun w => (w.1, numberText w.2)) ∧
      (writeAll writes root).Printable := by
  induction writes generalizing entries root with
  | nil =>
    rw [List.map_nil, List.append_nil]
    exact ⟨h, hroot⟩
  | cons w writes ih =>
    obtain ⟨hhead, htail⟩ := List.pairwise_cons.mp hapart
    have hwNames := hnames w List.mem_cons_self
    have hparts := components_joined (hne w List.mem_cons_self) hwNames
    have hwrite : (writeNumber (joined w.1) w.2 root).1 = root.insert (numberText w.2) w.1 := by
      rw [writeNumber, write_eq (by rwa [hparts]), hparts]
    have hstep := h.insert (hne w List.mem_cons_self)
      (fun token ht => ne_nil_of_isName (hwNames token ht)) (hentries w List.mem_cons_self)
      (numberText w.2)
    have hprint : (root.insert (numberText w.2) w.1).Printable :=
      hroot.insert (safeText_of_isNameChar fun c hc => isNameChar_of_mem_numberText hc)
        (by decide) hwNames
    have hrest := ih hstep hprint (fun v hv => hne v (List.mem_cons_of_mem w hv))
      (fun v hv => hnames v (List.mem_cons_of_mem w hv)) htail fun v hv e he => by
        rcases List.mem_append.mp he with he | he
        · exact hentries v (List.mem_cons_of_mem w hv) e he
        · rw [List.mem_singleton.mp he]
          exact hhead v hv
    rw [writeAll, List.foldl_cons, hwrite, List.map_cons]
    rw [List.append_assoc] at hrest
    exact hrest

theorem represents_create (version : Str) :
    (create version).Represents [([versionName], version)] := by
  refine ⟨fun keys => ?_, fun e he => ?_, fun keys => ?_⟩
  · rw [texts_create]
    split_ifs <;> simp
  · rw [List.mem_singleton.mp he, texts_create, if_pos rfl]
  · rw [texts_create]
    match keys with
    | [] => simp
    | [key] =>
      by_cases hkey : key = versionName <;> simp [hkey]
    | key :: key' :: keys => simp

/-- A parser that reports the texts of numbers and the version of the build in one piece. -/
structure NumberExpat (version : Version) extends Expat where
  number : ∀ value, splitter.split (numberText value) = [numberText value]
  version : version.chars = [] ∨ splitter.split version.chars = [version.chars]

instance (version : Version) : Inhabited (NumberExpat version) where
  default :=
    { splitter := .whole
      reported := 0
      behind := fun _ => []
      number := fun value => if_neg (numberText_ne_nil value)
      version := or_iff_not_imp_left.mpr fun h => if_neg h }

section Reading

variable {root : Node} {sp : Splitter} {path : Str}

theorem readNumber_restored :
    readNumber path ⟨some (root.restored sp), 0⟩ =
      ((root.texts (components path)).map (lastPiece sp)).head?.bind fun text =>
        if text.isEmpty then none else some (strtoll text) := by
  rw [← texts_restored, texts, List.head?_map, readNumber]
  cases hfind : ((root.restored sp).findParts (components path)).head? with
  | none => simp [find, hfind]
  | some n =>
    have htext : (if n.hasChildText = true then some (strtoll n.cdata) else none) =
        if n.cdata.isEmpty = true then none else some (strtoll n.cdata) := by
      cases hcdata : n.cdata <;> simp [hasChildText, hcdata]
    simpa [find, hfind] using htext

theorem isExisting_restored :
    isExisting path ⟨some (root.restored sp), 0⟩ = true ↔ root.texts (components path) ≠ [] := by
  have hlength := congrArg List.length (texts_restored sp (components path) root)
  rw [texts, List.length_map, List.length_map] at hlength
  change decide (((root.restored sp).findParts (components path)).length > 0) = true ↔ _
  rw [hlength, decide_eq_true_eq, gt_iff_lt, List.length_pos_iff]

end Reading

/-- The numbers are read again, nothing else is there but the way to them and the version, and the
file is valid. -/
theorem XmlDeserialize.numbers_restored (version : Version) (expat : NumberExpat version)
    (w : NumberWrites) :
    let doc := Document.loadFromFile expat.toExpat (writeAll w.writes (create version.chars)).toXml
    (∀ write ∈ w.writes, readNumber (joined write.1) doc = some write.2) ∧
      (∀ path, isExisting path doc = true ↔
        path = versionName ∨ ∃ write ∈ w.writes, components path <+: write.1) ∧
      isValid version.chars doc = true := by
  intro doc
  -- The version stands beside the first names of the writes.
  have hversion : ∀ v ∈ w.writes, ∀ e ∈ [([versionName], version.chars)], Apart e.1 v.1 := by
    intro v hv e he
    rw [List.mem_singleton.mp he]
    have hne := w.nonempty v hv
    have hhead := w.notVersion v hv
    cases hkeys : v.1 with
    | nil => exact absurd hkeys hne
    | cons key keys =>
      rw [hkeys, List.head?_cons, ne_eq, Option.some.injEq] at hhead
      simp [Apart, hhead, Ne.symm hhead]
  obtain ⟨hrep, hprint⟩ := represents_writeAll (represents_create version.chars)
    (printable_create version) w.nonempty w.names w.apart hversion
  have hdoc : doc = ⟨some ((writeAll w.writes (create version.chars)).restored expat.splitter),
    0⟩ :=
    Document.loadFromFile_toXml expat.toExpat hprint
  refine ⟨fun v hv => ?_, fun path => ?_, ?_⟩
  · have htext := hrep.written (v.1, numberText v.2)
      (List.mem_append_right _ (List.mem_map.mpr ⟨v, hv, rfl⟩))
    have hwhole := (lastPiece_eq_iff expat.splitter _).mpr (.inr (expat.number v.2))
    rw [hdoc, readNumber_restored, components_joined (w.nonempty v hv) (w.names v hv), htext]
    simp [hwhole, numberText_ne_nil, strtoll_numberText]
  · have hname : components path = [versionName] ↔ path = versionName := by
      constructor
      · intro h
        rw [← joined_components path, h]
        rfl
      · rintro rfl
        decide
    have hprefix : components path <+: [versionName] ↔ components path = [versionName] := by
      simp [List.prefix_cons_iff, components_ne_nil]
    rw [hdoc, isExisting_restored, hrep.exists_iff, and_iff_right (components_ne_nil path), ← hname,
      ← hprefix]
    simp
  · have htext := hrep.written ([versionName], version.chars)
      (List.mem_append_left _ List.mem_cons_self)
    have hwhole := (lastPiece_eq_iff expat.splitter _).mpr expat.version
    have hread : read versionName doc = some version.chars := by
      rw [hdoc, read_restored, show components versionName = [versionName] by decide, htext]
      simp [hwhole]
    rw [isValid, checkVersion, hread]
    simp

def signSplitter : Splitter where
  split cs := if cs = [] then [] else if cs.head? = some '-' ∧ cs.tail ≠ [] then [['-'], cs.tail]
    else [cs]
  flatten cs := by
    cases cs with
    | nil => rfl
    | cons c cs => by_cases h : c = '-' <;> by_cases hcs : cs = [] <;> simp [h, hcs]
  nonempty cs := by
    cases cs with
    | nil => simp
    | cons c cs => by_cases h : c = '-' <;> by_cases hcs : cs = [] <;> simp [h, hcs, eq_comm]

/-- That texts of digits are reported in one piece is not enough: with the sign in a piece of its
own a negative number loses it. -/
theorem XmlDeserialize.sign_lost :
    (∀ cs : Str, cs ≠ [] → (∀ c ∈ cs, c.isDigit = true) → signSplitter.split cs = [cs]) ∧
      readNumber ['a'] (Document.loadFromFile ⟨signSplitter, 0, fun _ => []⟩
        (writeAll [([['a']], -5)] (create ['2', '.', '4'])).toXml) = some 5 := by
  constructor
  · intro cs hne hdigits
    have hsign : ¬ (cs.head? = some '-' ∧ cs.tail ≠ []) := by
      rintro ⟨hhead, -⟩
      exact absurd (hdigits '-' (List.mem_of_mem_head? hhead)) (by decide)
    rw [signSplitter]
    dsimp only
    rw [if_neg hne, if_neg hsign]
  · decide +kernel

end Ffado.Util.Xml
