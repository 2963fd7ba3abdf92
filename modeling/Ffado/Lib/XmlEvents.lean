import Mathlib.Data.List.TakeWhile
import Mathlib.Tactic

/-!
# XML as events

A parser for XML texts without whitespace, and so without attributes and declarations. It reports
the starts and the ends of elements and the character data between them, and fails where the text is
not well formed. Character data is plain text, a reference or a section that is not parsed; `Piece`
is what is known of it wherever it comes from.
-/
namespace XmlEvents

abbrev Str := List Char

inductive Event
  | start (name : Str)
  | stop
  | text (data : Str)
  deriving DecidableEq

def isNameStart (c : Char) : Bool := c.isAlpha || c == '_' || c == ':'

def isNameChar (c : Char) : Bool := isNameStart c || c.isDigit || c == '-' || c == '.'

def isName : Str → Bool
  | [] => false
  | c :: cs => isNameStart c && cs.all isNameChar

def takeName (cs : Str) : Option (Str × Str) :=
  match cs with
  | [] => none
  | c :: _ => if isNameStart c then some (cs.takeWhile isNameChar,
      cs.dropWhile isNameChar) else none

/-- What stands before the first occurrence of a terminator and behind it. -/
def splitAtSeq (stop : Str) : Str → Option (Str × Str)
  | [] => if stop = [] then some ([], []) else none
  | c :: cs =>
    if stop.isPrefixOf (c :: cs) then some ([], (c :: cs).drop stop.length)
    else (splitAtSeq stop cs).map fun r => (c :: r.1, r.2)

inductive Lexeme
  | openTag (name rest : Str)
  | emptyTag (name rest : Str)
  | closeTag (name rest : Str)
  | data (chars rest : Str)
  | skip (rest : Str)
  /-- An error, maybe behind some data. -/
  | bad (chars : Str)

def lexComment (cs : Str) : Lexeme :=
  match splitAtSeq ['-', '-'] cs with
  | some (_, '>' :: rest) => .skip rest
  | _ => .bad []

def cdataEnd : Str := [']', ']', '>']

def lexCdata (cs : Str) : Lexeme :=
  match splitAtSeq cdataEnd cs with
  | some (chars, rest) => .data chars rest
  | none => .bad []

/-- Without whitespace an instruction is a target only. -/
def lexInstruction (cs : Str) : Lexeme :=
  match takeName cs with
  | some (name, '?' :: '>' :: rest) =>
    if name.map Char.toLower = ['x', 'm', 'l'] then .bad [] else .skip rest
  | _ => .bad []

def lexTag (cs : Str) : Lexeme :=
  match takeName cs with
  | some (name, '>' :: rest) => .openTag name rest
  | some (name, '/' :: '>' :: rest) => .emptyTag name rest
  | _ => .bad []

def lexEnd (cs : Str) : Lexeme :=
  match takeName cs with
  | some (name, '>' :: rest) => .closeTag name rest
  | _ => .bad []

def hexDigit (c : Char) : Option ℕ :=
  if c.isDigit then some (c.toNat - 48)
  else if 'a' ≤ c ∧ c ≤ 'f' then some (c.toNat - 87)
  else if 'A' ≤ c ∧ c ≤ 'F' then some (c.toNat - 55)
  else none

def numeral (base : ℕ) (cs : Str) : Option ℕ :=
  if cs = [] then none
  else cs.foldl (fun acc c => acc.bind fun n => (hexDigit c).bind fun d =>
    if d < base then some (n * base + d) else none) (some 0)

/-- The characters that a text may have. -/
def isXmlChar (n : ℕ) : Bool :=
  n == 0x9 || n == 0xa || n == 0xd || (0x20 ≤ n && n ≤ 0xd7ff) || (0xe000 ≤ n && n ≤ 0xfffd) ||
    (0x10000 ≤ n && n ≤ 0x10ffff)

def decodeNumeral (n : ℕ) : Option Char := if isXmlChar n then some (Char.ofNat n) else none

/-- The character a reference stands for; no entities are declared. -/
def decodeReference (name : Str) : Option Char :=
  match name with
  | ['l', 't'] => some '<'
  | ['g', 't'] => some '>'
  | ['a', 'm', 'p'] => some '&'
  | ['q', 'u', 'o', 't'] => some '"'
  | ['a', 'p', 'o', 's'] => some '\''
  | '#' :: 'x' :: digits => (numeral 16 digits).bind decodeNumeral
  | '#' :: digits => (numeral 10 digits).bind decodeNumeral
  | _ => none

def lexReference (cs : Str) : Lexeme :=
  match splitAtSeq [';'] cs with
  | some (name, rest) =>
    match decodeReference name with
    | some c => .data [c] rest
    | none => .bad []
  | none => .bad []

def isPlain (c : Char) : Bool := c != '<' && c != '&'

/-- The end of a section must not stand in plain text. -/
def lexPlain (cs : Str) : Lexeme :=
  match splitAtSeq cdataEnd (cs.takeWhile isPlain) with
  | some (before, _) => .bad before
  | none => .data (cs.takeWhile isPlain) (cs.dropWhile isPlain)

def lex : Str → Lexeme
  | '<' :: '/' :: cs => lexEnd cs
  | '<' :: '!' :: '-' :: '-' :: cs => lexComment cs
  | '<' :: '!' :: '[' :: 'C' :: 'D' :: 'A' :: 'T' :: 'A' :: '[' :: cs => lexCdata cs
  | '<' :: '?' :: cs => lexInstruction cs
  | '<' :: cs => lexTag cs
  | '&' :: cs => lexReference cs
  | cs => lexPlain cs

/-- The elements that are open, and whether the root element has been seen. -/
structure State where
  stack : List Str
  started : Bool

/-- Another element can begin. -/
def State.canOpen (s : State) : Bool := !s.stack.isEmpty || !s.started

def State.push (s : State) (name : Str) : State := ⟨name :: s.stack, true⟩

/-- Events are put in front of those of the rest. -/
def emit (evs : List Event) (r : List Event × Bool) : List Event × Bool := (evs ++ r.1, r.2)

/-- The events up to the end of the text or to an error, and whether there was none. -/
def parse : ℕ → State → Str → List Event × Bool
  | 0, _, _ => ([], false)
  | _ + 1, s, [] => ([], s.stack.isEmpty && s.started)
  | fuel + 1, s, c :: cs =>
    match lex (c :: cs) with
    | .openTag name rest =>
      if s.canOpen then emit [.start name] (parse fuel (s.push name) rest) else ([], false)
    | .emptyTag name rest =>
      if s.canOpen then emit [.start name, .stop] (parse fuel { s with started := true } rest)
      else ([], false)
    | .closeTag name rest =>
      match s.stack with
      | top :: stack => if top = name then emit [.stop] (parse fuel { s with stack := stack } rest)
        else ([], false)
      | [] => ([], false)
    | .data chars rest =>
      if s.stack.isEmpty then ([], false) else emit [.text chars] (parse fuel s rest)
    | .skip rest => parse fuel s rest
    | .bad chars => (if s.stack.isEmpty then [] else [.text chars], false)

/-- Every lexeme takes a character. -/
def parseText (cs : Str) : List Event × Bool := parse (cs.length + 1) ⟨[], false⟩ cs

/-- Character data is reported in one or several pieces. -/
structure Splitter where
  split : Str → List Str
  flatten : ∀ cs, (split cs).flatten = cs
  nonempty : ∀ cs, [] ∉ split cs

/-- Data is reported as a whole. -/
def Splitter.whole : Splitter where
  split cs := if cs = [] then [] else [cs]
  flatten cs := by split_ifs with h <;> simp [h]
  nonempty cs := by split_ifs with h <;> simp [eq_comm, h]

theorem Splitter.split_nil (sp : Splitter) : sp.split [] = [] := by
  cases hsplit : sp.split [] with
  | nil => rfl
  | cons p ps =>
    have hflatten := sp.flatten []
    rw [hsplit, List.flatten_cons, List.append_eq_nil_iff] at hflatten
    have hmem : [] ∈ sp.split [] := by
      rw [hsplit, hflatten.1]
      exact List.mem_cons_self
    exact absurd hmem (sp.nonempty [])

/-- The last piece is the whole just if there is no other. -/
theorem Splitter.getLast?_eq_some_iff (sp : Splitter) (cs : Str) :
    (sp.split cs).getLast? = some cs ↔ sp.split cs = [cs] := by
  constructor
  · intro h
    obtain ⟨ps, hps⟩ := List.getLast?_eq_some_iff.mp h
    have hflatten := sp.flatten cs
    rw [hps, List.flatten_append, List.flatten_singleton] at hflatten
    have hnil : ps.flatten = [] := by
      have hlength := congrArg List.length hflatten
      rw [List.length_append] at hlength
      exact List.eq_nil_of_length_eq_zero (by omega)
    cases ps with
    | nil => exact hps
    | cons p ps =>
      rw [List.flatten_cons, List.append_eq_nil_iff] at hnil
      refine absurd ?_ (sp.nonempty cs)
      rw [hps, hnil.1]
      exact List.mem_cons_self
  · intro h
    rw [h]
    rfl

/-- A piece is part of the data. -/
theorem Splitter.infix_of_mem (sp : Splitter) {cs p : Str} (h : p ∈ sp.split cs) : p <:+: cs := by
  have hinfix := List.infix_of_mem_flatten h
  rwa [sp.flatten] at hinfix

def expand (sp : Splitter) (evs : List Event) : List Event :=
  evs.flatMap fun
    | .text data => (sp.split data).map .text
    | e => [e]

/-- Of a text that is not well formed any number of events may have been reported. -/
def report (sp : Splitter) (reported : ℕ) (r : List Event × Bool) : List Event :=
  if r.2 then expand sp r.1 else (expand sp r.1).take reported

/-- Data from a text `cs`: plain text, one character for a reference, or a section, which has taken
two brackets more than there are in it. -/
def Piece (cs d : Str) : Prop :=
  ((∀ c ∈ d, isPlain c = true ∧ c ∈ cs) ∧ ¬ cdataEnd <:+: d) ∨
  (d.length ≤ 1 ∧ '&' ∈ cs ∧ ';' ∈ cs) ∨
  ((∀ c ∈ d, c ∈ cs) ∧ d.count '[' + 2 ≤ cs.count '[')

section Pieces

variable {cs cs' d d' : Str}

variable {e : Event} {r : Str × Str}

/-- A longer text and a part of the data. -/
theorem Piece.mono (h : Piece cs d) (hcs : cs.Sublist cs') (hd : d' <:+: d) : Piece cs' d' := by
  rcases h with ⟨hplain, hend⟩ | ⟨hlength, hamp, hsemi⟩ | ⟨hmem, hcount⟩
  · refine .inl ⟨fun c hc => ?_, fun h => hend (h.trans hd)⟩
    obtain ⟨hc', hmem⟩ := hplain c (hd.subset hc)
    exact ⟨hc', hcs.subset hmem⟩
  · exact .inr (.inl ⟨hd.length_le.trans hlength, hcs.subset hamp, hcs.subset hsemi⟩)
  · refine .inr (.inr ⟨fun c hc => hcs.subset (hmem c (hd.subset hc)), ?_⟩)
    have hle := hd.sublist.count_le '['
    have hle' := hcs.count_le '['
    omega

theorem splitAtSeq_eq {stop : Str} (h : splitAtSeq stop cs = some r) :
    cs = r.1 ++ stop ++ r.2 := by
  induction cs generalizing r with
  | nil =>
    rw [splitAtSeq] at h
    split_ifs at h with hstop
    rw [← Option.some.inj h, hstop]
    rfl
  | cons c cs ih =>
    rw [splitAtSeq] at h
    split_ifs at h with hpre
    · rw [← Option.some.inj h]
      obtain ⟨t, ht⟩ := List.isPrefixOf_iff_prefix.mp hpre
      rw [← ht]
      simp
    · obtain ⟨r', hr', rfl⟩ := Option.map_eq_some_iff.mp h
      rw [ih hr']
      simp

theorem splitAtSeq_eq_none {stop : Str} (h : splitAtSeq stop cs = none) : ¬ stop <:+: cs := by
  induction cs with
  | nil =>
    rw [splitAtSeq] at h
    split_ifs at h with hstop
    rwa [List.infix_nil]
  | cons c cs ih =>
    rw [splitAtSeq] at h
    split_ifs at h with hpre
    rw [Option.map_eq_none_iff] at h
    intro hinfix
    rcases List.infix_cons_iff.mp hinfix with hp | htail
    · exact hpre (List.isPrefixOf_iff_prefix.mpr hp)
    · exact ih h htail

/-- The text before the first terminator has none in it, for one that cannot overlap its own end. -/
theorem not_infix_of_splitAtSeq (h : splitAtSeq cdataEnd cs = some r) :
    ¬ cdataEnd <:+: r.1 := by
  induction cs generalizing r with
  | nil =>
    rw [splitAtSeq] at h
    split_ifs at h with hstop
    cases hstop
  | cons c cs ih =>
    rw [splitAtSeq] at h
    split_ifs at h with hpre
    · rw [← Option.some.inj h, List.infix_nil]
      exact List.cons_ne_nil _ _
    · obtain ⟨r', hr', rfl⟩ := Option.map_eq_some_iff.mp h
      intro hinfix
      rcases List.infix_cons_iff.mp hinfix with hp | htail
      · refine hpre (List.isPrefixOf_iff_prefix.mpr (hp.trans ?_))
        rw [splitAtSeq_eq hr', List.append_assoc]
        exact List.prefix_append (c :: r'.1) _
      · exact ih hr' htail

theorem takeName_eq (h : takeName cs = some r) : cs = r.1 ++ r.2 := by
  cases cs with
  | nil => cases h
  | cons c cs =>
    rw [takeName] at h
    split_ifs at h
    rw [← Option.some.inj h]
    exact List.takeWhile_append_dropWhile.symm

def Lexeme.Sound (cs : Str) : Lexeme → Prop
  | .openTag name rest => isName name = true ∧ rest.Sublist cs
  | .emptyTag name rest => isName name = true ∧ rest.Sublist cs
  | .closeTag _ rest => rest.Sublist cs
  | .data chars rest => rest.Sublist cs ∧ Piece cs chars
  | .skip rest => rest.Sublist cs
  | .bad chars => Piece cs chars

theorem Lexeme.Sound.mono {l : Lexeme} (h : l.Sound cs) (hcs : cs.Sublist cs') : l.Sound cs' := by
  cases l with
  | closeTag name rest => exact List.Sublist.trans h hcs
  | data chars rest => exact ⟨h.1.trans hcs, h.2.mono hcs (List.infix_refl _)⟩
  | skip rest => exact List.Sublist.trans h hcs
  | bad chars => exact Piece.mono h hcs (List.infix_refl _)
  | _ => exact ⟨h.1, h.2.trans hcs⟩

/-- No data at all. -/
theorem piece_nil (cs : Str) : Piece cs [] := by
  left
  constructor
  · intro c hc
    cases hc
  · rw [List.infix_nil]
    exact List.cons_ne_nil _ _

theorem isName_of_takeName (h : takeName cs = some r) : isName r.1 = true := by
  cases cs with
  | nil => cases h
  | cons c cs =>
    rw [takeName] at h
    split_ifs at h with hstart
    have hchar : isNameChar c = true := by
      rw [isNameChar, hstart]
      rfl
    rw [← Option.some.inj h, List.takeWhile_cons_of_pos hchar, isName, hstart, Bool.true_and,
      List.all_eq_true]
    exact fun d hd => List.mem_takeWhile_imp hd

theorem sublist_of_takeName {name rest : Str} {r : Str} (h : takeName cs = some (name, r))
    (hr : rest.Sublist r) : rest.Sublist cs := by
  rw [takeName_eq h]
  exact hr.trans (List.sublist_append_right _ _)

theorem lexComment_sound (cs : Str) : (lexComment cs).Sound cs := by
  unfold lexComment
  split
  · next heq =>
    rw [splitAtSeq_eq heq]
    exact (List.sublist_cons_self _ _).trans (List.sublist_append_right _ _)
  · exact piece_nil cs

theorem lexInstruction_sound (cs : Str) : (lexInstruction cs).Sound cs := by
  unfold lexInstruction
  split
  · next heq =>
    split_ifs
    · exact piece_nil cs
    · exact sublist_of_takeName heq ((List.sublist_cons_self _ _).trans
        (List.sublist_cons_self _ _))
  · exact piece_nil cs

theorem lexTag_sound (cs : Str) : (lexTag cs).Sound cs := by
  unfold lexTag
  split
  · next heq =>
    exact ⟨isName_of_takeName heq, sublist_of_takeName heq (List.sublist_cons_self _ _)⟩
  · next heq =>
    exact ⟨isName_of_takeName heq,
      sublist_of_takeName heq ((List.sublist_cons_self _ _).trans (List.sublist_cons_self _ _))⟩
  · exact piece_nil cs

theorem lexEnd_sound (cs : Str) : (lexEnd cs).Sound cs := by
  unfold lexEnd
  split
  · next heq => exact sublist_of_takeName heq (List.sublist_cons_self _ _)
  · exact piece_nil cs

/-- The brackets of the start of the section are in the text, but not in the data. -/
theorem lexCdata_sound (cs : Str) :
    (lexCdata cs).Sound ('<' :: '!' :: '[' :: 'C' :: 'D' :: 'A' :: 'T' :: 'A' :: '[' :: cs) := by
  unfold lexCdata
  split
  · next chars rest heq =>
    have hcs := splitAtSeq_eq heq
    have hsub := List.sublist_append_right ['<', '!', '[', 'C', 'D', 'A', 'T', 'A', '['] cs
    have hchars : chars.Sublist cs := by
      rw [hcs, List.append_assoc]
      exact List.sublist_append_left _ _
    constructor
    · refine List.Sublist.trans ?_ hsub
      rw [hcs]
      exact List.sublist_append_right _ _
    · refine .inr (.inr ⟨fun c hc => hsub.subset (hchars.subset hc), ?_⟩)
      have hle := hchars.count_le '['
      simp
      omega
  · exact piece_nil _

theorem lexReference_sound (cs : Str) : (lexReference cs).Sound ('&' :: cs) := by
  unfold lexReference
  split
  · next name rest heq =>
    have hcs := splitAtSeq_eq heq
    split
    · constructor
      · rw [hcs]
        exact (List.sublist_append_right _ _).trans (List.sublist_cons_self _ _)
      · refine .inr (.inl ⟨le_rfl, List.mem_cons_self, List.mem_cons_of_mem _ ?_⟩)
        rw [hcs]
        simp
    · exact piece_nil _
  · exact piece_nil _

theorem lexPlain_sound (cs : Str) : (lexPlain cs).Sound cs := by
  have hplain : ∀ c ∈ cs.takeWhile isPlain, isPlain c = true ∧ c ∈ cs := fun c hc =>
    ⟨List.mem_takeWhile_imp hc, (List.takeWhile_sublist _).subset hc⟩
  unfold lexPlain
  split
  · next before rest heq =>
    refine .inl ⟨fun c hc => hplain c ?_, not_infix_of_splitAtSeq heq⟩
    rw [splitAtSeq_eq heq]
    simp [hc]
  · next heq => exact ⟨List.dropWhile_sublist _, .inl ⟨hplain, splitAtSeq_eq_none heq⟩⟩

theorem lex_sound (cs : Str) : (lex cs).Sound cs := by
  unfold lex
  split
  · exact (lexEnd_sound _).mono (List.sublist_append_right ['<', '/'] _)
  · exact (lexComment_sound _).mono (List.sublist_append_right ['<', '!', '-', '-'] _)
  · exact lexCdata_sound _
  · exact (lexInstruction_sound _).mono (List.sublist_append_right ['<', '?'] _)
  · exact (lexTag_sound _).mono (List.sublist_cons_self _ _)
  · exact lexReference_sound _
  · exact lexPlain_sound _

def Event.Sound (cs : Str) : Event → Prop
  | .start name => isName name = true
  | .stop => True
  | .text data => Piece cs data

theorem Event.Sound.mono (h : e.Sound cs) (hcs : cs.Sublist cs') : e.Sound cs' := by
  cases e with
  | start name => exact h
  | stop => trivial
  | text data => exact Piece.mono h hcs (List.infix_refl _)

theorem sound_of_mem_parse {fuel : ℕ} {s : State} (h : e ∈ (parse fuel s cs).1) :
    e.Sound cs := by
  induction fuel generalizing s cs with
  | zero => cases h
  | succ fuel ih =>
    cases cs with
    | nil => cases h
    | cons c cs =>
      have hsound := lex_sound (c :: cs)
      rw [parse] at h
      cases hlex : lex (c :: cs) with
      | openTag name rest =>
        rw [hlex] at h hsound
        dsimp only at h
        split_ifs at h
        · rcases List.mem_cons.mp h with rfl | h
          · exact hsound.1
          · exact (ih h).mono hsound.2
        · cases h
      | emptyTag name rest =>
        rw [hlex] at h hsound
        dsimp only at h
        split_ifs at h
        · rcases List.mem_cons.mp h with rfl | h
          · exact hsound.1
          · rcases List.mem_cons.mp h with rfl | h
            · trivial
            · exact (ih h).mono hsound.2
        · cases h
      | closeTag name rest =>
        rw [hlex] at h hsound
        cases hstack : s.stack with
        | nil =>
          rw [hstack] at h
          cases h
        | cons top stack =>
          rw [hstack] at h
          dsimp only at h
          split_ifs at h
          · rcases List.mem_cons.mp h with rfl | h
            · trivial
            · exact (ih h).mono hsound
          · cases h
      | data chars rest =>
        rw [hlex] at h hsound
        dsimp only at h
        split_ifs at h
        · cases h
        · rcases List.mem_cons.mp h with rfl | h
          · exact hsound.2
          · exact (ih h).mono hsound.1
      | skip rest =>
        rw [hlex] at h hsound
        exact (ih h).mono hsound
      | bad chars =>
        rw [hlex] at h hsound
        dsimp only at h
        split_ifs at h
        · cases h
        · rw [List.mem_singleton.mp h]
          exact hsound

theorem sound_of_mem_report {sp : Splitter} {reported : ℕ}
    (h : e ∈ report sp reported (parseText cs)) : e.Sound cs ∧ e ≠ .text [] := by
  have hmem : e ∈ expand sp (parseText cs).1 := by
    rw [report] at h
    split_ifs at h
    · exact h
    · exact List.mem_of_mem_take h
  obtain ⟨e', he', he⟩ := List.mem_flatMap.mp hmem
  cases e' with
  | start name =>
    rw [List.mem_singleton.mp he]
    exact ⟨sound_of_mem_parse he', nofun⟩
  | stop =>
    rw [List.mem_singleton.mp he]
    exact ⟨trivial, nofun⟩
  | text data =>
    obtain ⟨p, hp, rfl⟩ := List.mem_map.mp he
    constructor
    · have hpiece : Piece cs data := sound_of_mem_parse he'
      exact hpiece.mono (List.Sublist.refl _) (sp.infix_of_mem hp)
    · intro hnil
      exact sp.nonempty data (Event.text.inj hnil ▸ hp)

end Pieces

/-- Character data that is reported as it stands. -/
def PlainText (cs : Str) : Prop := (∀ c ∈ cs, isPlain c = true) ∧ ¬ cdataEnd <:+: cs

instance (cs : Str) : Decidable (PlainText cs) := @instDecidableAnd _ _ (List.decidableBAll _ _) _

section WellFormed

variable {name text : Str} {s : State}

variable {c : Char}

theorem isNameChar_of_mem (h : isName name = true) (hc : c ∈ name) :
    isNameChar c = true := by
  cases name with
  | nil => cases hc
  | cons d cs =>
    rw [isName, Bool.and_eq_true, List.all_eq_true] at h
    rcases List.mem_cons.mp hc with rfl | hc
    · rw [isNameChar, h.1]
      rfl
    · exact h.2 c hc

theorem takeName_append (h : isName name = true) (hc : isNameChar c = false) (rest : Str) :
    takeName (name ++ c :: rest) = some (name, c :: rest) := by
  have hall : ∀ d ∈ name, isNameChar d = true := fun d hd => isNameChar_of_mem h hd
  cases name with
  | nil => cases h
  | cons d cs =>
    rw [isName, Bool.and_eq_true] at h
    rw [List.cons_append, takeName, if_pos h.1, ← List.cons_append,
      List.takeWhile_append_of_pos hall, List.dropWhile_append_of_pos hall,
      List.takeWhile_cons_of_neg (by simp [hc]), List.dropWhile_cons_of_neg (by simp [hc]),
      List.append_nil]

theorem lexEnd_append (h : isName name = true) (rest : Str) :
    lex ('<' :: '/' :: name ++ '>' :: rest) = .closeTag name rest := by
  change lexEnd (name ++ '>' :: rest) = _
  rw [lexEnd, takeName_append h (by decide)]
  rfl

/-- A tag that does not begin with one of the signs of the other kinds. -/
theorem lex_tag (hc : isNameStart c = true) (cs : Str) :
    lex ('<' :: c :: cs) = lexTag (c :: cs) := by
  have hslash : c ≠ '/' := by rintro rfl; exact absurd hc (by decide)
  have hbang : c ≠ '!' := by rintro rfl; exact absurd hc (by decide)
  have hquestion : c ≠ '?' := by rintro rfl; exact absurd hc (by decide)
  unfold lex
  split <;> simp_all

theorem lex_tag_append (h : isName name = true) (rest : Str) :
    lex ('<' :: name ++ rest) = lexTag (name ++ rest) := by
  cases name with
  | nil => cases h
  | cons c cs =>
    rw [isName, Bool.and_eq_true] at h
    exact lex_tag h.1 _

theorem lex_openTag (h : isName name = true) (rest : Str) :
    lex ('<' :: name ++ '>' :: rest) = .openTag name rest := by
  rw [lex_tag_append h, lexTag, takeName_append h (by decide)]
  rfl

theorem lex_emptyTag (h : isName name = true) (rest : Str) :
    lex ('<' :: name ++ '/' :: '>' :: rest) = .emptyTag name rest := by
  rw [lex_tag_append h, lexTag, takeName_append h (by decide)]
  rfl

theorem splitAtSeq_eq_none_iff {stop cs : Str} : splitAtSeq stop cs = none ↔ ¬ stop <:+: cs := by
  constructor
  · exact splitAtSeq_eq_none
  · intro h
    cases hsplit : splitAtSeq stop cs with
    | none => rfl
    | some r => exact absurd ⟨r.1, r.2, (splitAtSeq_eq hsplit).symm⟩ h

theorem lex_plain (hc : isPlain c = true) (cs : Str) : lex (c :: cs) = lexPlain (c :: cs) := by
  have hlt : c ≠ '<' := by rintro rfl; exact absurd hc (by decide)
  have hamp : c ≠ '&' := by rintro rfl; exact absurd hc (by decide)
  unfold lex
  split <;> simp_all

theorem lex_text (h : PlainText text) (hne : text ≠ []) (rest : Str) :
    lex (text ++ '<' :: rest) = .data text ('<' :: rest) := by
  have htake : (text ++ '<' :: rest).takeWhile isPlain = text := by
    rw [List.takeWhile_append_of_pos h.1, List.takeWhile_cons_of_neg (by decide), List.append_nil]
  have hdrop : (text ++ '<' :: rest).dropWhile isPlain = '<' :: rest := by
    rw [List.dropWhile_append_of_pos h.1, List.dropWhile_cons_of_neg (by decide)]
  obtain ⟨c, cs, rfl⟩ := List.exists_cons_of_ne_nil hne
  rw [List.cons_append, lex_plain (h.1 c List.mem_cons_self), ← List.cons_append, lexPlain, htake,
    hdrop, splitAtSeq_eq_none_iff.mpr h.2]

theorem parse_openTag (h : isName name = true) (hs : s.canOpen = true) (fuel : ℕ) (rest : Str) :
    parse (fuel + 1) s ('<' :: name ++ '>' :: rest) =
      emit [.start name] (parse fuel (s.push name) rest) := by
  rw [List.cons_append, parse, ← List.cons_append, lex_openTag h]
  exact if_pos hs

theorem parse_emptyTag (h : isName name = true) (hs : s.canOpen = true) (fuel : ℕ) (rest : Str) :
    parse (fuel + 1) s ('<' :: name ++ '/' :: '>' :: rest) =
      emit [.start name, .stop] (parse fuel { s with started := true } rest) := by
  rw [List.cons_append, parse, ← List.cons_append, lex_emptyTag h]
  exact if_pos hs

theorem parse_closeTag (h : isName name = true) (fuel : ℕ) (stack : List Str) (started : Bool)
    (rest : Str) :
    parse (fuel + 1) ⟨name :: stack, started⟩ ('<' :: '/' :: name ++ '>' :: rest) =
      emit [.stop] (parse fuel ⟨stack, started⟩ rest) := by
  rw [List.cons_append, parse, ← List.cons_append, lexEnd_append h]
  exact if_pos rfl

theorem parse_text (h : PlainText text) (hne : text ≠ []) (hs : s.stack ≠ []) (fuel : ℕ)
    (rest : Str) :
    parse (fuel + 1) s (text ++ '<' :: rest) = emit [.text text] (parse fuel s ('<' :: rest)) := by
  have hlex := lex_text h hne rest
  obtain ⟨c, cs, rfl⟩ := List.exists_cons_of_ne_nil hne
  rw [List.cons_append] at hlex ⊢
  rw [parse, hlex]
  exact if_neg (by simpa using hs)

end WellFormed

end XmlEvents
