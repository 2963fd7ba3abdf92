import Ffado.Avc.MusicDescriptor
import Ffado.Lib.Lockstep

/-!
# Parsing a music subunit descriptor again

The parser of the descriptor works on the object that is there. Members that it reads are
overwritten, but the plugs are appended: two objects that parse the same bytes get the same new
plugs behind those they have.
-/
namespace Ffado.Avc

open Cmd Decoding Deserializer Lockstep MachineInt

variable {α : Type}

/-- All reads have succeeded. -/
abbrev Reader.Ok (s : Reader) : Prop := s.result = true

section Keeps

variable {α : Type}

theorem keeps_read (f : BufferDeserialize → BufferDeserialize × Option α) (old : α) :
    Keeps Reader.Ok (read f old) := by
  rintro s _ _ ⟨⟩ hok
  exact (Bool.and_eq_true_iff.mp hok).1

theorem keeps_readLocal (f : BufferDeserialize → BufferDeserialize × Option α) :
    Keeps Reader.Ok (readLocal f) := by
  intro s a t h hok
  obtain ⟨value, -, heq⟩ := Option.map_eq_some_iff.mp h
  cases heq
  exact hok

theorem keeps_refuse : Keeps Reader.Ok refuse := by
  rintro s _ _ ⟨⟩ hok
  cases hok

theorem keeps_skip (length : ℕ) : Keeps Reader.Ok (skip length) := by
  rintro s _ _ ⟨⟩ hok
  exact hok

theorem keeps_getNrOfConsumedBytes : Keeps Reader.Ok getNrOfConsumedBytes := by
  intro s a t h hok
  obtain ⟨-, rfl⟩ := Prod.mk.inj (Option.some.inj h)
  exact hok

theorem keeps_peek (offset : ℕ) : Keeps Reader.Ok (peek offset) := by
  rintro s _ _ ⟨⟩ hok
  exact hok

theorem keeps_readText (length : ℕ) : Keeps Reader.Ok (readText length) := by
  intro s a t h hok
  rw [readText] at h
  split at h
  · obtain ⟨text, -, heq⟩ := Option.map_eq_some_iff.mp h
    cases heq
    exact (Bool.and_eq_true_iff.mp hok).1
  · cases h

theorem InfoBlock.keeps_deserialize (b : InfoBlock) (supported : UInt16) :
    Keeps Reader.Ok (b.deserialize supported) := by
  refine (keeps_read _ _).bind fun _ => (keeps_read _ _).bind fun _ =>
    (keeps_read _ _).bind fun _ => ?_
  exact (keeps_refuse.bind fun _ => keeps_pure _).ite (keeps_pure _)

theorem RawTextInfoBlock.keeps_deserialize (b : RawTextInfoBlock) :
    Keeps Reader.Ok b.deserialize :=
  (b.header.keeps_deserialize _).bind fun _ => (keeps_readText _).bind fun _ => keeps_pure _

theorem NameInfoBlock.keeps_deserialize (b : NameInfoBlock) : Keeps Reader.Ok b.deserialize := by
  refine (b.header.keeps_deserialize _).bind fun _ => ?_
  refine (keeps_read _ _).bind fun _ => (keeps_read _ _).bind fun _ => ?_
  refine (keeps_read _ _).bind fun _ => (keeps_read _ _).bind fun _ => ?_
  exact (keeps_readLocal _).bind fun _ => (keeps_readText _).bind fun _ => keeps_pure _

theorem TextBlocks.keeps_deserialize (t : TextBlocks) (bytesLeft : ℤ) :
    Keeps Reader.Ok (t.deserialize bytesLeft) := by
  refine Keeps.ite ((keeps_peek 2).bind fun blockType => ?_) (keeps_pure t)
  cases blockType with
  | none => exact keeps_failure
  | some blockType =>
    refine Keeps.ite (t.rawText.keeps_deserialize.bind fun _ => keeps_pure _) ?_
    refine Keeps.ite (t.name.keeps_deserialize.bind fun _ => keeps_pure _) ?_
    exact (keeps_skip _).bind fun _ => keeps_pure _

theorem SignalInfo.keeps_deserialize : Keeps Reader.Ok SignalInfo.deserialize :=
  (keeps_readLocal _).bind fun _ => (keeps_readLocal _).bind fun _ =>
    (keeps_readLocal _).bind fun _ => keeps_pure _

theorem ClusterInfoBlock.keeps_deserialize (b : ClusterInfoBlock) :
    Keeps Reader.Ok b.deserialize := by
  refine (b.header.keeps_deserialize _).bind fun _ => keeps_getNrOfConsumedBytes.bind fun _ => ?_
  refine (keeps_read _ _).bind fun _ => (keeps_read _ _).bind fun _ =>
    (keeps_read _ _).bind fun _ => ?_
  refine (SignalInfo.keeps_deserialize.times _).bind fun _ => ?_
  exact keeps_getNrOfConsumedBytes.bind fun _ => (b.texts.keeps_deserialize _).bind fun _ =>
    keeps_pure _

theorem SubunitPlugInfoBlock.keeps_deserialize (b : SubunitPlugInfoBlock) :
    Keeps Reader.Ok b.deserialize := by
  refine (b.header.keeps_deserialize _).bind fun _ =>
    Keeps.ite (keeps_refuse.bind fun _ => keeps_pure _) ?_
  refine keeps_getNrOfConsumedBytes.bind fun _ => (keeps_read _ _).bind fun _ => ?_
  refine (keeps_read _ _).bind fun _ => (keeps_read _ _).bind fun _ => ?_
  refine (keeps_read _ _).bind fun _ => (keeps_read _ _).bind fun _ => ?_
  refine ((ClusterInfoBlock.keeps_deserialize _).times _).bind fun _ => ?_
  exact keeps_getNrOfConsumedBytes.bind fun _ => (b.texts.keeps_deserialize _).bind fun _ =>
    keeps_pure _

theorem PlugEnd.keeps_deserialize (x : PlugEnd) : Keeps Reader.Ok x.deserialize := by
  refine (keeps_read _ _).bind fun _ => (keeps_read _ _).bind fun _ => ?_
  refine (keeps_read _ _).bind fun _ => (keeps_read _ _).bind fun _ => ?_
  exact (keeps_read _ _).bind fun _ => keeps_pure _

theorem MusicPlugInfoBlock.keeps_deserialize (b : MusicPlugInfoBlock) :
    Keeps Reader.Ok b.deserialize := by
  refine (b.header.keeps_deserialize _).bind fun _ =>
    Keeps.ite (keeps_refuse.bind fun _ => keeps_pure _) ?_
  refine (keeps_read _ _).bind fun _ => (keeps_read _ _).bind fun _ =>
    (keeps_read _ _).bind fun _ => ?_
  refine b.source.keeps_deserialize.bind fun _ => b.dest.keeps_deserialize.bind fun _ => ?_
  exact (b.texts.keeps_deserialize _).bind fun _ => keeps_pure _

end Keeps

/-- A read that succeeds does not depend on the value before it. -/
theorem locked_read (f : BufferDeserialize → BufferDeserialize × Option α) (old old' : α) :
    Locked Reader.Ok Eq (read f old) (read f old') := by
  refine ⟨keeps_read f old, keeps_read f old', ?_⟩
  rintro s _ _ _ _ ⟨⟩ ⟨⟩ hok _
  obtain ⟨value, hvalue⟩ := Option.isSome_iff_exists.mp (Bool.and_eq_true_iff.mp hok).2
  refine ⟨rfl, ?_⟩
  rw [hvalue]
  rfl

/-- A function that returns false has failed. -/
theorem locked_refuse {β : Type} (R : α → β → Prop) (a : α) (b : β) :
    Locked Reader.Ok R (refuse >>= fun _ => pure a) (refuse >>= fun _ => pure b) := by
  refine ⟨keeps_refuse.bind fun _ => keeps_pure a, keeps_refuse.bind fun _ => keeps_pure b, ?_⟩
  rintro s _ _ _ _ ⟨⟩ _ hok
  cases hok

theorem InfoBlock.locked_deserialize (b b' : InfoBlock) (supported : UInt16) :
    Locked Reader.Ok Eq (b.deserialize supported) (b'.deserialize supported) := by
  refine (locked_read _ _ _).bind fun _ => (locked_read _ _ _).bind fun _ => ?_
  refine (locked_read _ _ _).bind fun _ => Locked.ite (locked_refuse _ _ _) (.pure rfl)

theorem GeneralStatusInfoBlock.locked_deserialize (order : ByteOrder)
    (b b' : GeneralStatusInfoBlock) :
    Locked Reader.Ok Eq (b.deserialize order) (b'.deserialize order) := by
  refine (b.header.locked_deserialize b'.header _).bind fun _ => Locked.ite (locked_refuse _ _ _) ?_
  refine (locked_read _ _ _).bind fun _ => (locked_read _ _ _).bind fun _ => ?_
  exact (locked_read _ _ _).bind fun _ => .pure rfl

theorem locked_deserializeOutputPlugStatus (b b' : InfoBlock) :
    Locked Reader.Ok Eq (deserializeOutputPlugStatus b) (deserializeOutputPlugStatus b') :=
  (b.locked_deserialize b' _).bind fun _ => (keeps_skip _).locked.bind fun _ => .pure rfl

/-- Two lists have grown by the same items. -/
def SameNew {α : Type} (before before' after after' : List α) : Prop :=
  ∃ news, after = before ++ news ∧ after' = before' ++ news

theorem SameNew.refl (l l' : List α) : SameNew l l' l l' :=
  ⟨[], (List.append_nil l).symm, (List.append_nil l').symm⟩

theorem SameNew.append {l l' m m' : List α} (h : SameNew l l' m m') (news : List α) :
    SameNew l l' (m ++ news) (m' ++ news) := by
  obtain ⟨first, rfl, rfl⟩ := h
  exact ⟨first ++ news, List.append_assoc _ _ _, List.append_assoc _ _ _⟩

theorem SameNew.eq_iff {m m' : List α} (h : SameNew [] m m m') : m' = m ↔ m = [] := by
  obtain ⟨news, rfl, rfl⟩ := h
  exact List.append_right_eq_self

namespace RoutingStatusInfoBlock

variable (b b' : RoutingStatusInfoBlock)

def overwritten : InfoBlock × UInt8 × UInt8 × UInt16 :=
  (b.header, b.nbDestPlugs, b.nbSourcePlugs, b.nbMusicPlugs)

def Parsed (a a' : RoutingStatusInfoBlock) : Prop :=
  a.overwritten = a'.overwritten ∧ ∃ dests sources musics,
    (a.destPlugs = b.destPlugs ++ dests ∧ a'.destPlugs = b'.destPlugs ++ dests) ∧
    (a.sourcePlugs = b.sourcePlugs ++ sources ∧ a'.sourcePlugs = b'.sourcePlugs ++ sources) ∧
    (a.musicPlugs = b.musicPlugs ++ musics ∧ a'.musicPlugs = b'.musicPlugs ++ musics)

theorem locked_deserialize : Locked Reader.Ok (Parsed b b') b.deserialize b'.deserialize := by
  refine (b.header.locked_deserialize b'.header _).bind fun _ => Locked.ite (locked_refuse _ _ _) ?_
  refine (locked_read _ _ _).bind fun _ => (locked_read _ _ _).bind fun _ => ?_
  refine (locked_read _ _ _).bind fun _ => ?_
  refine ((SubunitPlugInfoBlock.keeps_deserialize _).times _).locked.bind fun dests => ?_
  refine ((SubunitPlugInfoBlock.keeps_deserialize _).times _).locked.bind fun sources => ?_
  refine ((MusicPlugInfoBlock.keeps_deserialize _).times _).locked.bind fun musics => ?_
  exact .pure ⟨rfl, dests, sources, musics, ⟨rfl, rfl⟩, ⟨rfl, rfl⟩, ⟨rfl, rfl⟩⟩

end RoutingStatusInfoBlock

/-- Two values that began as `before` and `before'` are still those, or have both been overwritten
with the same. -/
def Overwritten {α : Type} (before before' after after' : α) : Prop :=
  after = after' ∨ after = before ∧ after' = before'

theorem Overwritten.eq {before a a' : α} (h : Overwritten before a a a') : a' = a := by
  obtain h | ⟨-, h⟩ := h
  · exact h.symm
  · exact h

namespace MusicStatusDescriptor

variable (order : ByteOrder)

/-- What two objects that began as `x` and `x'` are after the same blocks. -/
structure Alike (x x' a a' : MusicStatusDescriptor) : Prop where
  generalStatus : Overwritten x.generalStatus x'.generalStatus a.generalStatus a'.generalStatus
  outputPlugStatus :
    Overwritten x.outputPlugStatus x'.outputPlugStatus a.outputPlugStatus a'.outputPlugStatus
  routingStatus : Overwritten x.routingStatus.overwritten x'.routingStatus.overwritten
    a.routingStatus.overwritten a'.routingStatus.overwritten
  destPlugs : SameNew x.routingStatus.destPlugs x'.routingStatus.destPlugs
    a.routingStatus.destPlugs a'.routingStatus.destPlugs
  sourcePlugs : SameNew x.routingStatus.sourcePlugs x'.routingStatus.sourcePlugs
    a.routingStatus.sourcePlugs a'.routingStatus.sourcePlugs
  musicPlugs : SameNew x.routingStatus.musicPlugs x'.routingStatus.musicPlugs
    a.routingStatus.musicPlugs a'.routingStatus.musicPlugs

theorem Alike.start (x x' : MusicStatusDescriptor) : Alike x x' x x' :=
  ⟨Or.inr ⟨rfl, rfl⟩, Or.inr ⟨rfl, rfl⟩, Or.inr ⟨rfl, rfl⟩, .refl _ _, .refl _ _, .refl _ _⟩

variable {order} {x x' d d' : MusicStatusDescriptor}

theorem locked_deserializeBlock (h : Alike x x' d d') (blockType : UInt16) :
    Locked Reader.Ok (Alike x x') (d.deserializeBlock order blockType)
      (d'.deserializeBlock order blockType) := by
  refine (keeps_peek 0).locked.bind fun blockLength => ?_
  refine Locked.ite ?_ (Locked.ite ?_ (Locked.ite ?_ ?_))
  · refine (d.generalStatus.locked_deserialize order d'.generalStatus).bind fun generalStatus => ?_
    exact .pure { h with generalStatus := Or.inl rfl }
  · refine (locked_deserializeOutputPlugStatus _ _).bind fun outputPlugStatus => ?_
    exact .pure { h with outputPlugStatus := Or.inl rfl }
  · refine (d.routingStatus.locked_deserialize d'.routingStatus).bindRel (fun _ => keeps_pure _)
      (fun _ => keeps_pure _) ?_
    rintro routing routing' ⟨hover, dests, sources, musics, ⟨hd, hd'⟩, ⟨hs, hs'⟩, ⟨hm, hm'⟩⟩
    apply Locked.pure
    refine { h with
      routingStatus := Or.inl hover, destPlugs := ?_, sourcePlugs := ?_, musicPlugs := ?_ }
    · rw [hd, hd']
      exact h.destPlugs.append dests
    · rw [hs, hs']
      exact h.sourcePlugs.append sources
    · rw [hm, hm']
      exact h.musicPlugs.append musics
  · cases blockLength with
    | none => exact locked_failure _
    | some blockLength => exact (keeps_skip _).locked.bind fun _ => .pure h

theorem locked_deserializeBlocks (turns : ℕ) (h : Alike x x' d d') :
    Locked Reader.Ok (Alike x x') (deserializeBlocks order turns d)
      (deserializeBlocks order turns d') := by
  induction turns generalizing x x' d d' with
  | zero => exact .pure h
  | succ turns ih =>
    refine (keeps_peek 2).locked.bind fun blockType => ?_
    cases blockType with
    | none => exact .pure h
    | some blockType =>
      refine keeps_get.locked.bind fun s => Locked.ite ?_ (.pure h)
      have hkeeps : ∀ desc, Keeps Reader.Ok (deserializeBlocks order turns desc) :=
        fun desc => (ih (Alike.start desc desc)).keepsLeft
      exact (locked_deserializeBlock h blockType).bindRel hkeeps hkeeps fun _ _ ha => ih ha

/-- There are no plugs that have been appended. -/
def NoPlugs (desc : MusicStatusDescriptor) : Prop :=
  desc.routingStatus.destPlugs = [] ∧ desc.routingStatus.sourcePlugs = [] ∧
    desc.routingStatus.musicPlugs = []

instance (desc : MusicStatusDescriptor) : Decidable desc.NoPlugs :=
  inferInstanceAs (Decidable (_ ∧ _ ∧ _))

theorem eq_iff {a a' : MusicStatusDescriptor} (hgeneral : a'.generalStatus = a.generalStatus)
    (houtput : a'.outputPlugStatus = a.outputPlugStatus)
    (hrouting : a'.routingStatus.overwritten = a.routingStatus.overwritten) :
    a' = a ↔ a'.routingStatus.destPlugs = a.routingStatus.destPlugs ∧
      a'.routingStatus.sourcePlugs = a.routingStatus.sourcePlugs ∧
      a'.routingStatus.musicPlugs = a.routingStatus.musicPlugs := by
  constructor
  · rintro rfl
    exact ⟨rfl, rfl, rfl⟩
  · rintro ⟨hdest, hsource, hmusic⟩
    obtain ⟨_, _, _, _, _, _, _, _, _⟩ := a
    obtain ⟨_, _, _, _, _, _, _, _, _⟩ := a'
    cases hrouting
    cases hgeneral
    cases houtput
    cases hdest
    cases hsource
    cases hmusic
    rfl

/-- Parsed into the object that it gave, a descriptor changes nothing just if it has no plugs. -/
theorem reparsed_eq_iff {s t u : Reader} {a a' : MusicStatusDescriptor}
    (ha : deserialize order fresh s = some (a, t)) (ht : t.result = true)
    (ha' : deserialize order a s = some (a', u)) (hu : u.result = true) : a' = a ↔ a.NoPlugs := by
  have h := (locked_deserializeBlocks maxTurns (Alike.start fresh a)).agree s a t a' u ha ha' ht hu
  obtain ⟨hgeneral, houtput, hrouting, hdest, hsource, hmusic⟩ := h.2
  rw [eq_iff hgeneral.eq houtput.eq hrouting.eq, hdest.eq_iff, hsource.eq_iff,
    hmusic.eq_iff, NoPlugs]

end MusicStatusDescriptor

end Ffado.Avc
