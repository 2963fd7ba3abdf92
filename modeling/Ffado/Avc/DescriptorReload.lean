import Ffado.Avc.AudioDescriptor
import Ffado.Avc.DescriptorLoad

/-!
# Loading a descriptor again

Two classes of descriptors are loaded: the status descriptor of the music subunit and the identifier
descriptor of the audio subunit. A load and a reload fetch the same bytes; what the reload leaves
depends on how the class parses into an object that is filled already.
-/
namespace Ffado.Avc.DescriptorLoad

open CircularMemory Cmd Decoding

/-- The memory behind the buffer of the object, and where it ends. A text is read up to the first
zero byte and the last quadlet of a block is not checked, so a parser may get there. -/
structure Behind where
  memory : ℕ → UInt8
  mapped : ℕ

def Behind.reader (behind : Behind) (data : List UInt8) : Reader :=
  ⟨.create (storeAt behind.memory 0 data) data.length, behind.mapped, true⟩

inductive Kind
  | musicStatus
  | audioIdentifier
  deriving DecidableEq

namespace Kind

def Contents : Kind → Type
  | musicStatus => MusicStatusDescriptor
  | audioIdentifier => AudioIdentifierDescriptor

def deserialize (order : ByteOrder) : (kind : Kind) → kind.Contents → Deserializer kind.Contents
  | musicStatus, contents => MusicStatusDescriptor.deserialize order contents
  | audioIdentifier, contents => AudioIdentifierDescriptor.deserialize contents

def parse (order : ByteOrder) (behind : Behind) (kind : Kind) : Parse kind.Contents :=
  fun contents data =>
    (kind.deserialize order contents (behind.reader data)).map fun x => (x.1, x.2.result)

/-- The contents of an object that has just been made; the members of the audio descriptor have no
initial values. -/
def Constructed : (kind : Kind) → kind.Contents → Prop
  | musicStatus, contents => contents = MusicStatusDescriptor.fresh
  | audioIdentifier, _ => True

/-- There is nothing in the contents that a parser would append again. -/
def Settled : (kind : Kind) → kind.Contents → Prop
  | musicStatus, contents => MusicStatusDescriptor.NoPlugs contents
  | audioIdentifier, _ => True

theorem reparsed_eq_iff {order : ByteOrder} {behind : Behind} {kind : Kind}
    {x a a' : kind.Contents} {data : List UInt8} (hx : kind.Constructed x)
    (ha : kind.parse order behind x data = some (a, true))
    (ha' : kind.parse order behind a data = some (a', true)) : a' = a ↔ kind.Settled a := by
  obtain ⟨⟨_, t⟩, hparse, heq⟩ := Option.map_eq_some_iff.mp ha
  obtain ⟨⟨_, u⟩, hparse', heq'⟩ := Option.map_eq_some_iff.mp ha'
  obtain ⟨rfl, ht⟩ := Prod.mk.inj heq
  obtain ⟨rfl, hu⟩ := Prod.mk.inj heq'
  cases kind with
  | musicStatus =>
    subst hx
    exact MusicStatusDescriptor.reparsed_eq_iff hparse ht hparse' hu
  | audioIdentifier =>
    exact iff_of_true (AudioIdentifierDescriptor.reparsed_eq hparse ht hparse' hu) trivial

end Kind

variable (dev : Device) (order : ByteOrder) (behind : Behind) (kind : Kind) (r r' : Replies)

/-- The load and the reload are right, and if both return true the contents are those of the
load. -/
structure LoadsAndReloads (x : kind.Contents) : Prop where
  load : LoadsRight dev r (kind.parse order behind) ⟨x, false⟩
  reload : ∀ o, Yields dev r (kind.parse order behind) ⟨x, false⟩ o →
    LoadsRight dev r' (kind.parse order behind) { o.object with loaded := false }
  same : ∀ o, Yields dev r (kind.parse order behind) ⟨x, false⟩ o → o.result = some true →
    ∀ fuel o', DescriptorLoad.reload dev r' (kind.parse order behind) fuel o.object = some o' →
      o'.result = some true → o'.object.contents = o.object.contents

/-- The load returns true. -/
def Succeeds (d : Descriptor kind.Contents) : Prop :=
  r.Reaches ∧ Completed dev r ∧ verdict dev r (kind.parse order behind) d = some true

/-- The device cooperates in both loads, and there are no plugs if both succeed. -/
structure ReloadsWhen (x : kind.Contents) : Prop where
  load : r.Reaches → Cooperates dev r (kind.parse order behind) ⟨x, false⟩
  reload : ∀ o, Yields dev r (kind.parse order behind) ⟨x, false⟩ o → r'.Reaches →
    Cooperates dev r' (kind.parse order behind) { o.object with loaded := false }
  settled : ∀ o, Yields dev r (kind.parse order behind) ⟨x, false⟩ o → o.result = some true →
    Succeeds dev order behind kind r' { o.object with loaded := false } →
      kind.Settled o.object.contents

variable {dev order behind kind r r'}

theorem succeeds_iff {d : Descriptor kind.Contents} (hd : d.loaded = false) :
    Succeeds dev order behind kind r d ↔
      ∃ o, Yields dev r (kind.parse order behind) d o ∧ o.result = some true := by
  constructor
  · rintro ⟨hreach, hdone, htrue⟩
    refine ⟨_, (yields_of_ends hd hreach (ends_of_completed hdone) _).mpr rfl, ?_⟩
    rw [closeAndParse_result, htrue]
  · rintro ⟨o, ho⟩
    obtain ⟨hreach, hdone, hclose, contents, hparse, -⟩ := (yields_true_iff hd o).mp ho
    refine ⟨hreach, hdone, ?_⟩
    rw [verdict, if_neg (not_not.mpr hclose), hparse]
    rfl

theorem same_contents_iff {x : kind.Contents} (hx : kind.Constructed x)
    {o o' : Outcome kind.Contents}
    (hload : LoadsRight dev r (kind.parse order behind) ⟨x, false⟩)
    (hreload : LoadsRight dev r' (kind.parse order behind) { o.object with loaded := false })
    (ho : Yields dev r (kind.parse order behind) ⟨x, false⟩ o ∧ o.result = some true)
    (ho' : Yields dev r' (kind.parse order behind) { o.object with loaded := false } o' ∧
      o'.result = some true) :
    o'.object.contents = o.object.contents ↔ kind.Settled o.object.contents := by
  have hbytes := hload.complete o ho.1 ho.2
  have hbytes' := hreload.complete o' ho'.1 ho'.2
  obtain ⟨-, -, -, a, ha, rfl⟩ := (yields_true_iff rfl o).mp ho
  obtain ⟨-, -, -, a', ha', rfl⟩ := (yields_true_iff rfl o').mp ho'
  rw [Option.some.inj hbytes] at ha
  rw [Option.some.inj hbytes'] at ha'
  exact Kind.reparsed_eq_iff hx ha ha'

theorem loadsAndReloads_iff (dev : Device) (order : ByteOrder) (behind : Behind) (kind : Kind)
    (r r' : Replies) (x : kind.Contents) (hx : kind.Constructed x) :
    LoadsAndReloads dev order behind kind r r' x ↔ ReloadsWhen dev order behind kind r r' x := by
  constructor
  · rintro ⟨hload, hreload, hsame⟩
    refine ⟨(loadsRight_iff rfl).mp hload, fun o ho => (loadsRight_iff rfl).mp (hreload o ho), ?_⟩
    intro o ho htrue hsucceeds
    obtain ⟨o', ho', htrue'⟩ := (succeeds_iff rfl).mp hsucceeds
    rw [← same_contents_iff hx hload (hreload o ho) ⟨ho, htrue⟩ ⟨ho', htrue'⟩]
    obtain ⟨fuel, hfuel⟩ := ho'
    exact hsame o ho htrue fuel o' hfuel htrue'
  · rintro ⟨hload, hreload, hsettled⟩
    have hload := (loadsRight_iff rfl).mpr hload
    have hreload := fun o ho => (loadsRight_iff rfl).mpr (hreload o ho)
    refine ⟨hload, hreload, ?_⟩
    intro o ho htrue fuel o' hfuel htrue'
    have ho' : Yields dev r' (kind.parse order behind) { o.object with loaded := false } o' :=
      ⟨fuel, hfuel⟩
    rw [same_contents_iff hx hload (hreload o ho) ⟨ho, htrue⟩ ⟨ho', htrue'⟩]
    exact hsettled o ho htrue ((succeeds_iff rfl).mpr ⟨o', ho', htrue'⟩)

/-- A device that accepts everything and gives what is asked for at once. -/
def willing : Replies := ⟨true, ⟨true, 2, .complete⟩, fun _ => ⟨true, 2 ^ 16, .complete⟩, true⟩

def deviceOf (bytes : List UInt8) : Device := ⟨fun i => bytes.getD i 0⟩

def nothingBehind : Behind := ⟨fun _ => 0, 2 ^ 16⟩

/-- A device that gives four bytes at a time. -/
def inPieces : Replies := { willing with reads := fun _ => ⟨true, 4, .complete⟩ }

/-- A routing status block without plugs. -/
def noPlugs : Device := deviceOf [0, 10, 0, 8, 0x81, 0x08, 0, 4, 0, 0, 0, 0]

theorem loadsAndReloads_inPieces :
    LoadsAndReloads noPlugs .littleEndian nothingBehind .musicStatus inPieces inPieces
      MusicStatusDescriptor.fresh := by
  have hwraps : ¬ Wraps noPlugs inPieces := fun h => absurd h.1 (by decide)
  have hdone : Completed noPlugs inPieces := ⟨3, by decide, by decide⟩
  have hhanded : handed noPlugs inPieces = slice noPlugs.memory 2 10 := if_neg hwraps
  have hparsed : (Kind.musicStatus.parse .littleEndian nothingBehind MusicStatusDescriptor.fresh
      (slice noPlugs.memory 2 10)).map (fun p => (p.2, decide (MusicStatusDescriptor.NoPlugs p.1),
        (Kind.musicStatus.parse .littleEndian nothingBehind p.1
        (slice noPlugs.memory 2 10)).isSome)) =
      some (true, true, true) := by
    decide +kernel
  obtain ⟨⟨a, ok⟩, hfirst, hfacts⟩ := Option.map_eq_some_iff.mp hparsed
  simp only [Prod.mk.injEq, decide_eq_true_eq] at hfacts
  obtain ⟨rfl, hplugs, hagain⟩ := hfacts
  have hcooperates : ∀ d : Descriptor Kind.musicStatus.Contents,
      (Kind.musicStatus.parse .littleEndian nothingBehind d.contents
        (slice noPlugs.memory 2 10)).isSome = true →
      Cooperates noPlugs inPieces (Kind.musicStatus.parse .littleEndian nothingBehind) d := by
    intro d hd
    refine ⟨fun _ => ?_, fun ⟨_, _, _, hoffered, _⟩ => absurd hoffered (Nat.succ_ne_zero 3),
      fun _ _ h => absurd h hwraps⟩
    obtain ⟨p, hp⟩ := Option.isSome_iff_exists.mp hd
    rw [verdict, if_neg (by decide), hhanded, hp]
    exact Option.some_ne_none _
  have hcontents : ∀ o, Yields noPlugs inPieces
      (Kind.musicStatus.parse .littleEndian nothingBehind) ⟨MusicStatusDescriptor.fresh, false⟩ o →
      o.object.contents = a := by
    intro o ho
    rw [(yields_of_ends rfl ⟨rfl, rfl, le_rfl⟩ (ends_of_completed hdone) o).mp ho, hhanded,
      closeAndParse, if_neg (by decide), finish, hfirst]
  refine (loadsAndReloads_iff _ _ _ .musicStatus _ _ _ rfl).mpr ⟨fun _ => hcooperates _ ?_, ?_, ?_⟩
  · exact Option.isSome_of_eq_some hfirst
  · intro o ho _
    exact hcooperates _ (by rwa [hcontents o ho])
  · intro o ho _ _
    rwa [hcontents o ho]

/-- A routing status block with one music plug. -/
def oneMusicPlug : Device :=
  deviceOf [0, 30, 0, 28, 0x81, 0x08, 0, 4, 0, 0, 0, 1,
    0, 18, 0x81, 0x0B, 0, 14, 0, 0, 1, 0, 0, 0, 0, 0, 0, 0, 0, 0, 0, 0]

/-- What a load returned, and how many music plugs there are behind it. -/
def musicPlugCount (o : Outcome Kind.musicStatus.Contents) : Option Bool × ℕ :=
  (o.result, (MusicStatusDescriptor.routingStatus o.object.contents).musicPlugs.length)

def musicPlugCounts : Option ((Option Bool × ℕ) × (Option Bool × ℕ)) :=
  (load oneMusicPlug willing (Kind.musicStatus.parse .littleEndian nothingBehind) 2
      ⟨MusicStatusDescriptor.fresh, false⟩).bind fun o =>
    (reload oneMusicPlug willing (Kind.musicStatus.parse .littleEndian nothingBehind) 2
      o.object).map fun o' => (musicPlugCount o, musicPlugCount o')

theorem plugs_doubled :
    musicPlugCounts = some ((some true, 1), (some true, 2)) ∧
      ¬ LoadsAndReloads oneMusicPlug .littleEndian nothingBehind .musicStatus willing willing
        MusicStatusDescriptor.fresh := by
  have hcounts : musicPlugCounts = some ((some true, 1), (some true, 2)) := by decide +kernel
  refine ⟨hcounts, fun h => ?_⟩
  rw [musicPlugCounts] at hcounts
  obtain ⟨o, ho, hreload⟩ := Option.bind_eq_some_iff.mp hcounts
  obtain ⟨o', ho', hcount⟩ := Option.map_eq_some_iff.mp hreload
  obtain ⟨hfirst, hsecond⟩ := Prod.mk.inj hcount
  obtain ⟨htrue, hone⟩ := Prod.mk.inj hfirst
  obtain ⟨htrue', htwo⟩ := Prod.mk.inj hsecond
  rw [h.same o ⟨2, ho⟩ htrue 2 o' ho' htrue', hone] at htwo
  cases htwo

end Ffado.Avc.DescriptorLoad
