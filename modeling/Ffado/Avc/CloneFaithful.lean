import Ffado.Avc.Clone
import Mathlib.Data.List.Forall2

/-!
# Which clones are faithful

A clone is faithful if it writes the bytes of the original, whatever is done to the original's parts
afterwards. What most classes make of an object does not depend on the objects that were there
(`Becomes`), so that just the bytes have to be compared; the clone of a compound stream reads the
infos of the original.
-/
namespace Ffado.Avc.Clone

open ObjectHeap Cmd PlugInfo StreamFormat FunctionBlock

variable {junk : UInt16} {k p q r : ℕ} {h h' : Heap Cell} {m : Memory}
  {t length channel selector plug input output : UInt8}
  {root level1 level2 frequency rateControl number : UInt8} {parts : UInt8 → Pointer} {qs : List ℕ}

variable {xs : List StreamFormatInfo} {x : StreamFormatInfo}

def Pointer.Leads (P : ℕ → Prop) : Pointer → Prop
  | null => True
  | wild => False
  | set p => P p

def AddressAt (m : Memory) (p : ℕ) (x : PlugAddressSpecificData) : Prop :=
  ∃ q, m p = some (.plugAddress x.plugDirection x.addressMode q) ∧
    m q = some (.plain (.plugAddressData x.plugAddressData))

/-- Objects without pointers, and the data with addresses. -/
inductive DataAt (m : Memory) (p : ℕ) : Prop
  | plain {x : Plain} (hc : m p = some (.plain x))
  | plugInput {q : ℕ} {x : PlugAddressSpecificData} (hc : m p = some (.plugInput q))
      (hx : AddressAt m q x)
  | plugOutput {number : UInt8} {qs : List ℕ} {xs : List PlugAddressSpecificData}
      (hc : m p = some (.plugOutput number qs)) (hxs : List.Forall₂ (AddressAt m) qs xs)

def InfoAt (m : Memory) (p : ℕ) (x : StreamFormatInfo) : Prop :=
  m p = some (.plain (.streamFormatInfo x))

inductive StreamsAt (m : Memory) (p : ℕ) : Prop
  | sync {x : FormatInformationStreamsSync} (hc : m p = some (.plain (.sync x)))
  | compound {frequency rateControl number : UInt8} {qs : List ℕ} {xs : List StreamFormatInfo}
      (hc : m p = some (.compound frequency rateControl number qs))
      (hxs : List.Forall₂ (InfoAt m) qs xs)

/-- The pointers are set, and lead to objects of their classes. -/
inductive WellFormed (m : Memory) (p : ℕ) : Prop
  | data (hd : DataAt m p)
  | plugAddress {x : PlugAddressSpecificData} (hx : AddressAt m p x)
  | infoType {t : UInt8} {parts : UInt8 → Pointer} (hc : m p = some (.infoType t parts))
      (hpart : (parts t).Leads (DataAt m))
  | streams (hs : StreamsAt m p)
  | formatInformation {root level1 level2 : UInt8} {streams : Pointer}
      (hc : m p = some (.formatInformation root level1 level2 streams))
      (hs : streams.Leads (StreamsAt m))
  | feature {length channel selector : UInt8} {volume lrBalance : Pointer}
      (hc : m p = some (.feature length channel selector volume lrBalance))
      (hvolume : volume.Leads fun q => ∃ x, m q = some (.plain (.volume x)))
      (hlrBalance : lrBalance.Leads fun q => ∃ x, m q = some (.plain (.lrBalance x)))
  | processing {length plug input output : UInt8} {mixer enhancedMixer : Pointer}
      (hc : m p = some (.processing length plug input output mixer enhancedMixer))
      (hmixer : mixer.Leads fun q => ∃ x, m q = some (.plain (.mixer x)))
      (henhanced : enhancedMixer.Leads fun q => ∃ x, m q = some (.plain (.enhancedMixer x)))

def Faithful (junk : UInt16) (h : Heap Cell) (p : ℕ) : Prop :=
  ∃ q h', clone junk depth p h = some (q, h') ∧
    serialize h'.cells depth q = serialize h.cells depth p ∧
    ∀ m : Memory, (∀ a, ¬ IsPart Cell.pointers h.cells p a → m a = h'.cells a) →
      serialize m depth q = serialize h'.cells depth q

/-- The clone writes these bytes, whatever is done to the objects that were there before. -/
def Becomes (junk : UInt16) (depth : ℕ) (h : Heap Cell) (p : ℕ)
    (bytes : Option (List UInt8)) : Prop :=
  ∃ q h', clone junk depth p h = some (q, h') ∧ h.Le h' ∧
    Owned (fun m => serialize m depth q) h.next h' bytes

theorem Becomes.faithful_iff {bytes : Option (List UInt8)} (hb : Becomes junk depth h p bytes) :
    Faithful junk h p ↔ bytes = serialize h.cells depth p := by
  obtain ⟨q, h', hclone, hle, howned⟩ := hb
  constructor
  · rintro ⟨q', h'', hclone', hbytes, -⟩
    rw [hclone] at hclone'
    cases hclone'
    rw [← hbytes]
    exact howned.read_eq.symm
  · intro hbytes
    refine ⟨q, h', hclone, howned.read_eq.trans hbytes, ?_⟩
    intro m hm
    rw [howned.read_eq]
    apply howned
    intro a ha _
    exact hm a fun hpart => absurd hpart.lt_next (by omega)

theorem serialize_plain {x : Plain} (hc : m p = some (.plain x)) (k : ℕ) :
    serialize m (k + 1) p = some x.bytes := by
  rw [serialize, hc]

theorem becomes_plain (junk : UInt16) {x : Plain} (hc : h.cells p = some (.plain x)) (k : ℕ) :
    Becomes junk (k + 1) h p (some (x.copy junk).bytes) := by
  refine (makes_new (c := .plain (x.copy junk)) fun _ _ hm => serialize_plain hm k).congr ?_
  rw [clone, deref_bind hc]

theorem serialize_plugAddress {direction mode : UInt8}
    (hc : m p = some (.plugAddress direction mode q))
    (k : ℕ) : serialize m (k + 1) p = (serialize m k q).map ([direction, mode] ++ ·) := by
  rw [serialize, hc]

namespace AddressAt

variable {x : PlugAddressSpecificData}

theorem le (hx : AddressAt h.cells p x) (hle : h.Le h') : AddressAt h'.cells p x := by
  obtain ⟨q, hp, hq⟩ := hx
  exact ⟨q, hle.cells_eq_some hp, hle.cells_eq_some hq⟩

theorem serialize_eq (hx : AddressAt m p x) (k : ℕ) : serialize m (k + 2) p = some x.bytes := by
  obtain ⟨q, hp, hq⟩ := hx
  rw [serialize_plugAddress hp, serialize_plain hq]
  rfl

theorem becomes (junk : UInt16) (hx : AddressAt h.cells p x) (k : ℕ) :
    Becomes junk (k + 2) h p (some x.bytes) := by
  obtain ⟨q, hp, hq⟩ := hx
  refine (Makes.bind_new (becomes_plain junk hq k) (c := .plugAddress x.plugDirection x.addressMode)
    fun m a p hm hread => ?_).congr ?_
  · rw [serialize_plugAddress hm, hread]
    rfl
  · rw [clone, deref_bind hp]

end AddressAt

/-- Parts of one class are written in turn. -/
theorem serialize_mapM {α : Type} {R : ℕ → α → Prop} {bytes : α → List UInt8} {xs : List α}
    (hxs : List.Forall₂ R qs xs) (hR : ∀ q x, R q x → serialize m k q = some (bytes x)) :
    qs.mapM (serialize m k) = some (xs.map bytes) := by
  induction hxs with
  | nil => rfl
  | cons hx _ ih =>
    rw [List.mapM_cons, hR _ _ hx, ih]
    rfl

theorem becomes_mapM_addresses (junk : UInt16) {xs : List PlugAddressSpecificData}
    (hxs : List.Forall₂ (AddressAt h.cells) qs xs) (k : ℕ) :
    Makes (qs.mapM (clone junk (k + 2))) h (fun m qs' => qs'.mapM (serialize m (k + 2)))
      (some (xs.map PlugAddressSpecificData.bytes)) := by
  induction qs generalizing h xs with
  | nil =>
    cases hxs
    exact ⟨[], h, rfl, Heap.Le.refl h, fun _ _ => rfl⟩
  | cons q qs ih =>
    cases hxs with
    | cons hx hxs =>
      obtain ⟨q', h₁, hclone, hle, howned⟩ := hx.becomes junk k
      obtain ⟨qs', h₂, hclones, hle', howned'⟩ := ih (hxs.imp fun _ _ hx => hx.le hle)
      refine ⟨q' :: qs', h₂, ?_, hle.trans hle', ?_⟩
      · rw [List.mapM_cons, Decoding.run_bind_of_some hclone, Decoding.run_bind_of_some hclones]
        rfl
      · intro m hm
        have hq : serialize m (k + 2) q' = _ := howned.le le_rfl hle' m hm
        have hqs : qs'.mapM (serialize m (k + 2)) = _ :=
          howned'.le hle.next_le (Heap.Le.refl h₂) m hm
        change (q' :: qs').mapM (serialize m (k + 2)) = _
        rw [List.mapM_cons, hq, hqs]
        rfl

theorem serialize_plugInput (hc : m p = some (.plugInput q)) (k : ℕ) :
    serialize m (k + 1) p = serialize m k q := by
  rw [serialize, hc]

theorem becomes_plugInput (junk : UInt16) {x : PlugAddressSpecificData}
    (hc : h.cells p = some (.plugInput q)) (hx : AddressAt h.cells q x) (k : ℕ) :
    Becomes junk (k + 3) h p (serialize h.cells (k + 3) p) := by
  refine (Makes.bind_new (hx.becomes junk k) (c := .plugInput) fun m a p hm hread => ?_).congr ?_
  · rw [serialize_plugInput hm, serialize_plugInput hc, hx.serialize_eq]
    exact hread
  · rw [clone, deref_bind hc]

theorem becomes_plugOutput (junk : UInt16) {xs : List PlugAddressSpecificData}
    (hc : h.cells p = some (.plugOutput number qs)) (hxs : List.Forall₂ (AddressAt h.cells) qs xs)
    (k : ℕ) : Becomes junk (k + 3) h p (serialize h.cells (k + 3) p) := by
  refine (Makes.bind_new (becomes_mapM_addresses junk hxs k) (c := .plugOutput number)
    fun m qs' p hm hread => ?_).congr ?_
  · rw [serialize, hm, serialize, hc]
    change Option.map _ (qs'.mapM (serialize m (k + 2))) =
      Option.map _ (qs.mapM (serialize h.cells (k + 2)))
    rw [hread, serialize_mapM hxs fun _ _ hx => hx.serialize_eq k]
  · rw [clone, deref_bind hc]

theorem DataAt.exists_becomes (junk : UInt16) (hd : DataAt h.cells p) (k : ℕ) :
    ∃ bytes, Becomes junk (k + 3) h p bytes := by
  cases hd with
  | plain hc => exact ⟨_, becomes_plain junk hc (k + 2)⟩
  | plugInput hc hx => exact ⟨_, becomes_plugInput junk hc hx k⟩
  | plugOutput hc hxs => exact ⟨_, becomes_plugOutput junk hc hxs k⟩

/-- What a new object of the class that belongs to an info type writes. -/
def freshBytes (t : UInt8) : List UInt8 :=
  if t = 0x00 then [0xFF]
  else if t = 0x01 then [0x00]
  else if t = 0x02 then [0x00]
  else if t = 0x03 then [0x00]
  else if t = 0x04 then [0x00, 0xFF]
  else if t = 0x05 then [0x01, 0x00, 0x00, 0x00, 0xFF, 0xFF, 0xFF]
  else if t = 0x06 then [0x00]
  else [0x00, 0xFF, 0xFF]

theorem newPart_makes (ht : t ∈ infoTypes) (h : Heap Cell) (k : ℕ) :
    Makes (newPart t) h (fun m q => serialize m (k + 3) q) (some (freshBytes t)) := by
  have hplain (x : Plain) :
      Makes (new (.plain x)) h (fun m q => serialize m (k + 3) q) (some x.bytes) :=
    makes_new fun _ _ hm => serialize_plain hm _
  simp only [infoTypes, List.mem_cons, List.not_mem_nil, or_false] at ht
  rcases ht with rfl | rfl | rfl | rfl | rfl | rfl | rfl | rfl
  · exact hplain (.plugType .fresh)
  · exact hplain (.plugName .fresh)
  · exact hplain (.plugNrOfChns .fresh)
  · exact hplain (.plugChannelPosition .fresh)
  · exact hplain (.plugChannelName .fresh)
  · have hdata : Makes (new (.plain (.plugAddressData
      PlugAddressSpecificData.output.plugAddressData))) h
        (fun m q => serialize m (k + 1) q) _ := makes_new fun _ _ hm => serialize_plain hm k
    have haddress := hdata.bind_new (c := .plugAddress PlugAddressSpecificData.output.plugDirection
        PlugAddressSpecificData.output.addressMode) fun m a p hm hread =>
      (serialize_plugAddress hm (k + 1)).trans (congrArg (Option.map _) hread)
    exact (haddress.bind_new (c := .plugInput) fun m a p hm hread =>
      (serialize_plugInput hm (k + 2)).trans hread).congr rfl
  · refine makes_new fun m p hm => ?_
    rw [serialize, hm]
    rfl
  · exact hplain (.plugClusterInfo .fresh)

theorem serialize_infoType (ht : t ∈ infoTypes) (hc : m p = some (.infoType t parts))
    (hq : parts t = .set q) (k : ℕ) :
    serialize m (k + 1) p = (serialize m k q).map ([t] ++ ·) := by
  rw [serialize, hc]
  change (if t ∈ infoTypes then _ else _) = _
  rw [if_pos ht, hq]
  rfl

/-- The copy of the part is not used: the clone has a new one. -/
theorem becomes_infoType (junk : UInt16) (ht : t ∈ infoTypes)
    (hc : h.cells p = some (.infoType t parts)) (hq : parts t = .set q) (hd : DataAt h.cells q) :
    Becomes junk depth h p (some ([t] ++ freshBytes t)) := by
  obtain ⟨bytes, q₁, h₁, hclone, hle₁, -⟩ := hd.exists_becomes junk 0
  let copy := Cell.infoType t (Function.update (fun _ => .null) t (.set q₁))
  have hle₂ : h.Le (h₁.push copy) := hle₁.push copy
  obtain ⟨q₃, h₃, hnew, hle₃, howned⟩ := newPart_makes ht (h₁.push copy) 0
  have hlt : h₁.next < (h₁.push copy).next := Nat.lt_succ_self _
  have hlt₃ : h₁.next < h₃.next := hlt.trans_le hle₃.next_le
  let parts' := Function.update (Function.update (fun _ => Pointer.null) t (.set q₁)) t (.set q₃)
  refine ⟨h₁.next, h₃.set h₁.next (.infoType t parts') hlt₃, ?_, ?_, ?_⟩
  · have hinit : initializePart h₁.next (h₁.push copy) =
        some ((), h₃.set h₁.next (.infoType t parts') hlt₃) := by
      rw [initializePart, deref_bind (h₁.push_cells_next copy)]
      dsimp only [copy]
      rw [if_pos ht, Decoding.run_bind_of_some hnew]
      exact dif_pos hlt₃
    have hpart : (parts t).use (clone junk 3) h = some (q₁, h₁) := by
      rw [hq]
      exact hclone
    rw [depth, clone, deref_bind hc]
    dsimp only
    rw [if_pos ht, Decoding.run_bind_of_some hpart, new_bind]
    exact Decoding.run_bind_of_some hinit
  · exact (hle₂.trans hle₃).set hle₁.next_le _ hlt₃
  · refine (howned.set hlt _ hlt₃).hold hle₂.next_le hle₁.next_le (h₃.set_cells_self _ hlt₃) ?_
    intro m hm hread
    change serialize m (3 + 1) h₁.next = _
    rw [serialize_infoType ht hm (Function.update_self _ _ _)]
    exact congrArg (Option.map ([t] ++ ·)) hread

theorem becomes_infoType_unknown (junk : UInt16) (ht : t ∉ infoTypes)
    (hc : h.cells p = some (.infoType t parts)) : Becomes junk depth h p (some [t]) := by
  refine (makes_new (c := .infoType t fun _ => .null) fun m p hm => ?_).congr ?_
  · rw [depth, serialize, hm]
    exact if_neg ht
  · have hinit : initializePart h.next (h.push (.infoType t fun _ => .null)) =
        some ((), h.push (.infoType t fun _ => .null)) := by
      rw [initializePart, deref_bind (h.push_cells_next _)]
      exact congrFun (if_neg ht) _
    rw [depth, clone, deref_bind hc]
    dsimp only
    rw [if_neg ht, new_bind]
    exact Decoding.run_bind_of_some hinit

theorem serialize_compound (hc : m p = some (.compound frequency rateControl number qs))
    (hxs : List.Forall₂ (InfoAt m) qs xs) (k : ℕ) :
    serialize m (k + 2) p =
      some ([frequency, rateControl, number] ++ (xs.map StreamFormatInfo.fields).flatten) := by
  rw [serialize, hc]
  change Option.map _ (qs.mapM (serialize m (k + 1))) = _
  rw [serialize_mapM hxs fun _ _ hx => serialize_plain hx k]
  rfl

theorem exists_infos_update (hxs : List.Forall₂ (InfoAt m) qs xs) (q : ℕ) (y : StreamFormatInfo) :
    ∃ ys, List.Forall₂ (InfoAt (Function.update m q (some (.plain (.streamFormatInfo y))))) qs
      ys := by
  induction hxs with
  | nil => exact ⟨[], .nil⟩
  | @cons r x _ _ hx _ ih =>
    obtain ⟨ys, hys⟩ := ih
    by_cases hr : r = q
    · subst hr
      exact ⟨y :: ys, .cons (Function.update_self _ _ _) hys⟩
    · exact ⟨x :: ys, .cons ((Function.update_of_ne hr _ _).trans hx) hys⟩

theorem exists_serialize_ne (hc : m p = some (.compound frequency rateControl number (q :: qs)))
    (hxs : List.Forall₂ (InfoAt m) (q :: qs) (x :: xs)) (k : ℕ) :
    ∃ c, serialize (Function.update m q (some c)) (k + 2) p ≠ serialize m (k + 2) p := by
  let y : StreamFormatInfo := ⟨x.numberOfChannels + 1, x.streamFormat⟩
  cases hxs with
  | cons hx hxs =>
    have hne : p ≠ q := by
      rintro rfl
      rw [InfoAt, hc] at hx
      cases hx
    obtain ⟨ys, hys⟩ := exists_infos_update hxs q y
    refine ⟨.plain (.streamFormatInfo y), ?_⟩
    rw [serialize_compound ((Function.update_of_ne hne _ _).trans hc)
      (.cons (Function.update_self _ _ _) hys) k, serialize_compound hc (.cons hx hxs) k]
    simp [StreamFormatInfo.fields, y]

theorem clone_compound (junk : UInt16)
    (hc : h.cells p = some (.compound frequency rateControl number qs)) (k : ℕ) :
    clone junk (k + 1) p h = some (h.next, h.push (.compound frequency rateControl number qs)) := by
  rw [clone, deref_bind hc]
  rfl

theorem becomes_compound_nil (junk : UInt16)
    (hc : h.cells p = some (.compound frequency rateControl number [])) (k : ℕ) :
    Becomes junk (k + 2) h p (some [frequency, rateControl, number]) :=
  ⟨_, _, clone_compound junk hc (k + 1), h.le_push _,
    Owned.leaf le_rfl fun _ hm => serialize_compound hm .nil k⟩

theorem forall₂_infoAt_le (hxs : List.Forall₂ (InfoAt h.cells) qs xs) (hle : h.Le h') :
    List.Forall₂ (InfoAt h'.cells) qs xs :=
  hxs.imp fun _ _ hx => hle.cells_eq_some hx

theorem isPart_of_mem_infos (hc : m p = some (.compound frequency rateControl number (q :: qs)))
    (hx : InfoAt m q x) : IsPart Cell.pointers m p q :=
  .step hc List.mem_cons_self (.self hx)

theorem not_faithful_compound (junk : UInt16)
    (hc : h.cells p = some (.compound frequency rateControl number (q :: qs)))
    (hxs : List.Forall₂ (InfoAt h.cells) (q :: qs) (x :: xs)) : ¬ Faithful junk h p := by
  rintro ⟨r, h', hclone, -, hindependent⟩
  rw [depth, clone_compound junk hc] at hclone
  cases hclone
  obtain ⟨c, hne⟩ := exists_serialize_ne (h.push_cells_next _)
    (forall₂_infoAt_le hxs (h.le_push _)) 2
  refine hne (hindependent _ fun a ha => Function.update_of_ne ?_ _ _)
  rintro rfl
  exact ha (isPart_of_mem_infos hc (List.forall₂_cons.mp hxs).1)

def hierarchyBytes (root level1 level2 : UInt8) : List UInt8 :=
  (FormatInformation.mk root level1 level2 none).hierarchy

theorem serialize_formatInformation
    (hc : m p = some (.formatInformation root level1 level2 (.set q))) (k : ℕ) :
    serialize m (k + 1) p = (serialize m k q).map (hierarchyBytes root level1 level2 ++ ·) := by
  rw [serialize, hc]
  rfl

theorem clone_formatInformation
    (hc : h.cells p = some (.formatInformation root level1 level2 (.set q)))
    (hclone : clone junk k q h = some (r, h')) :
    clone junk (k + 1) p h =
      some (h'.next, h'.push (.formatInformation root level1 level2 (.set r))) := by
  have hstreams : copyIfSet (clone junk k) (.set q) h = some (.set r, h') :=
    (Decoding.run_bind_of_some hclone).trans rfl
  rw [clone, deref_bind hc]
  exact Decoding.run_bind_of_some hstreams

theorem becomes_formatInformation {bytes : Option (List UInt8)}
    (hc : h.cells p = some (.formatInformation root level1 level2 (.set q)))
    (hb : Becomes junk k h q bytes) :
    Becomes junk (k + 1) h p (bytes.map (hierarchyBytes root level1 level2 ++ ·)) := by
  obtain ⟨r, h', hclone, hle, howned⟩ := hb
  refine ⟨_, _, clone_formatInformation hc hclone, hle.push _, ?_⟩
  refine howned.push hle.next_le fun m hm hread => ?_
  rw [serialize_formatInformation hm, hread]

theorem not_faithful_formatInformation (junk : UInt16) {s : ℕ}
    (hc : h.cells p = some (.formatInformation root level1 level2 (.set s)))
    (hs : h.cells s = some (.compound frequency rateControl number (q :: qs)))
    (hxs : List.Forall₂ (InfoAt h.cells) (q :: qs) (x :: xs)) : ¬ Faithful junk h p := by
  rintro ⟨r, h', hclone, -, hindependent⟩
  rw [depth, clone_formatInformation hc (clone_compound junk hs 2)] at hclone
  cases hclone
  let h₁ := h.push (.compound frequency rateControl number (q :: qs))
  let h₂ := h₁.push (.formatInformation root level1 level2 (.set h.next))
  have hle : h₁.Le h₂ := h₁.le_push _
  have hcell := hle.cells_eq_some (h.push_cells_next _)
  have hinfos := forall₂_infoAt_le hxs ((h.le_push _).trans hle)
  have hq : q ≠ h₁.next := by
    have hlt : q < h.next := Heap.lt_next (List.forall₂_cons.mp hxs).1
    have hle₁ : h.next ≤ h₁.next := Nat.le_succ _
    omega
  obtain ⟨c, hne⟩ := exists_serialize_ne hcell hinfos 1
  have hsame := hindependent (Function.update h₂.cells q (some c)) fun a ha => by
    refine Function.update_of_ne ?_ _ _
    rintro rfl
    exact ha (.step hc List.mem_cons_self (isPart_of_mem_infos hs (List.forall₂_cons.mp hxs).1))
  rw [depth, serialize_formatInformation ((Function.update_of_ne hq.symm _ _).trans
    (h₁.push_cells_next _)), serialize_formatInformation (h₁.push_cells_next _)] at hsame
  exact hne (Option.map_injective (List.append_right_injective _) hsame)

section FunctionBlocks

variable {volume lrBalance mixer enhancedMixer : Pointer}

def featureBytes (length channel selector : UInt8) (volume lrBalance : Option (List UInt8)) :
    Option (List UInt8) :=
  Option.map ([length, channel, selector] ++ ·)
    (if selector = featureVolume then volume
    else if selector = featureLRBalance then lrBalance
    else some [])

theorem serialize_feature
    (hc : m p = some (.feature length channel selector volume lrBalance)) (k : ℕ) :
    serialize m (k + 1) p = featureBytes length channel selector (volume.use (serialize m k))
      (lrBalance.use (serialize m k)) := by
  rw [serialize, hc]
  rfl

theorem becomes_feature_volume (junk : UInt16) {x : FunctionBlockFeatureVolume}
    (hc : h.cells p = some (.feature length channel selector (.set q) lrBalance))
    (hx : h.cells q = some (.plain (.volume x))) (k : ℕ) :
    Becomes junk (k + 2) h p
      (featureBytes length channel selector (some (Plain.volume x).bytes) none) := by
  refine (Makes.bind_new (becomes_plain junk hx k) (c := fun r => .feature length channel selector
    (.set r) .wild) fun m r p hm hread => ?_).congr ?_
  · rw [serialize_feature hm]
    exact congrArg (featureBytes length channel selector · none) hread
  · rw [clone, deref_bind hc]
    exact congrFun (bind_assoc _ _ _) h

theorem becomes_feature_lrBalance (junk : UInt16) {x : FunctionBlockFeatureLRBalance}
    (hc : h.cells p = some (.feature length channel selector .null (.set q)))
    (hx : h.cells q = some (.plain (.lrBalance x))) (k : ℕ) :
    Becomes junk (k + 2) h p
      (featureBytes length channel selector none (some (Plain.lrBalance x).bytes)) := by
  refine (Makes.bind_new (becomes_plain junk hx k) (c := fun r => .feature length channel selector
    .wild (.set r)) fun m r p hm hread => ?_).congr ?_
  · rw [serialize_feature hm]
    exact congrArg (featureBytes length channel selector none) hread
  · rw [clone, deref_bind hc]
    exact congrFun (bind_assoc _ _ _) h

theorem serialize_processing
    (hc : m p = some (.processing length plug input output mixer enhancedMixer)) (k : ℕ) :
    serialize m (k + 1) p =
      (mixer.ifSet (serialize m k) (enhancedMixer.ifSet (serialize m k) (some []))).map
        ([length, plug, input, output] ++ ·) := by
  rw [serialize, hc]

theorem becomes_processing_mixer (junk : UInt16) {x : FunctionBlockProcessingMixer}
    (hc : h.cells p = some (.processing length plug input output (.set q) enhancedMixer))
    (hx : h.cells q = some (.plain (.mixer x))) (k : ℕ) :
    Becomes junk (k + 2) h p
      (some ([length, plug, input, output] ++ ((Plain.mixer x).copy junk).bytes)) := by
  refine (Makes.bind_new (becomes_plain junk hx k)
    (c := fun r => .processing length plug input output (.set r) .wild)
      fun m r p hm hread => ?_).congr ?_
  · rw [serialize_processing hm]
    exact congrArg (Option.map ([length, plug, input, output] ++ ·)) hread
  · rw [clone, deref_bind hc]
    exact congrFun (bind_assoc _ _ _) h

/-- Without a mixer the pointer that `serialize` tests is never set. -/
theorem becomes_processing_null (junk : UInt16)
    (hc : h.cells p = some (.processing length plug input output .null enhancedMixer))
    (henhanced : enhancedMixer.Leads fun q => ∃ x, h.cells q = some (.plain (.enhancedMixer x)))
    (k : ℕ) : Becomes junk (k + 2) h p none := by
  cases enhancedMixer with
  | null =>
    refine (makes_new (c := Cell.processing length plug input output .wild .wild) fun m p hm =>
      serialize_processing hm (k + 1)).congr ?_
    rw [clone, deref_bind hc]
    rfl
  | wild => exact henhanced.elim
  | set q =>
    obtain ⟨x, hx⟩ := henhanced
    refine (Makes.bind_new (becomes_plain junk hx k)
      (c := fun r => .processing length plug input output .wild (.set r)) fun m r p hm _ =>
        serialize_processing hm (k + 1)).congr ?_
    rw [clone, deref_bind hc]
    exact congrFun (bind_assoc _ _ _) h

end FunctionBlocks

def Plain.Kept : Plain → Prop
  | mixer x => x.controlDataLength = 0x02 ∧ x.mixerSetting = 0x0000
  | enhancedMixer x =>
    (x.statusSelector = statusProgramableState → 2 ^ 16 ∣ x.programableStateData.length / 8) ∧
    (x.statusSelector = statusLevel → 2 ^ 16 ∣ x.levelData.length * 2)
  | _ => True

def Kept (m : Memory) (p : ℕ) : Prop :=
  match m p with
  | some (.plain x) => x.Kept
  | some (.infoType t parts) =>
    t ∈ infoTypes → ∃ q, parts t = .set q ∧ serialize m 3 q = some (freshBytes t)
  | some (.compound _ _ _ infos) => infos = []
  | some (.formatInformation _ _ _ streams) =>
    ∀ q frequency rateControl number infos, streams = .set q →
      m q = some (.compound frequency rateControl number infos) → infos = []
  | some (.feature _ _ selector volume lrBalance) =>
    selector = featureLRBalance → volume = .null ∨ lrBalance = .null
  | some (.processing _ _ _ _ mixer _) =>
    ∃ q x, mixer = .set q ∧ m q = some (.plain (.mixer x)) ∧ (Plain.mixer x).Kept
  | _ => True

theorem word_inj {a b : UInt16} : word a = word b ↔ a = b := by
  constructor
  · intro hword
    have hbytes := congrArg (fun bytes => ofBytes (bytes.getD 0 0) (bytes.getD 1 0)) hword
    change ofBytes (hiByte a) (loByte a) = ofBytes (hiByte b) (loByte b) at hbytes
    rwa [ofBytes_hiByte_loByte, ofBytes_hiByte_loByte] at hbytes
  · rintro rfl
    rfl

theorem copy_bytes_mixer_iff (junk : UInt16) (x : FunctionBlockProcessingMixer) :
    ((Plain.mixer x).copy junk).bytes = (Plain.mixer x).bytes ↔ (Plain.mixer x).Kept := by
  change [x.controlSelector, 0x02] ++ word 0x0000 =
    [x.controlSelector, x.controlDataLength] ++ word x.mixerSetting ↔ _
  simp only [List.cons_append, List.nil_append, List.cons.injEq, true_and, word_inj, Plain.Kept]
  exact and_congr eq_comm eq_comm

theorem zeroLength_eq_iff {n : ℕ} {rest : List UInt8} (hrest : UInt16.ofNat n = 0 → rest = []) :
    [upperByte 0, lowerByte 0] =
      [upperByte (UInt16.ofNat n), lowerByte (UInt16.ofNat n)] ++ rest ↔ 2 ^ 16 ∣ n := by
  have hzero : UInt16.ofNat n = 0 ↔ 2 ^ 16 ∣ n := by
    rw [← UInt16.toNat_inj, UInt16.toNat_ofNat', Nat.dvd_iff_mod_eq_zero]
    rfl
  rw [← hzero]
  constructor
  · intro hbytes
    have hlength := congrArg (fun bytes => ofBytes (bytes.getD 0 0) (bytes.getD 1 0)) hbytes
    change ofBytes (upperByte 0) (lowerByte 0) =
      ofBytes (upperByte (UInt16.ofNat n)) (lowerByte (UInt16.ofNat n)) at hlength
    rw [ofBytes_upperByte_lowerByte, ofBytes_upperByte_lowerByte] at hlength
    exact hlength.symm
  · intro hlength
    rw [hrest hlength, hlength]
    rfl

theorem copy_bytes_enhancedMixer_iff (junk : UInt16) (x : FunctionBlockProcessingEnhancedMixer) :
    ((Plain.enhancedMixer x).copy junk).bytes = (Plain.enhancedMixer x).bytes ↔
      (Plain.enhancedMixer x).Kept := by
  change [x.controlSelector, x.statusSelector] ++ FunctionBlockProcessingEnhancedMixer.data
    ⟨x.controlSelector, x.statusSelector, junk, [], []⟩ =
      [x.controlSelector, x.statusSelector] ++ x.data ↔ _
  rw [List.append_cancel_left_eq, Plain.Kept, FunctionBlockProcessingEnhancedMixer.data,
    FunctionBlockProcessingEnhancedMixer.data, FunctionBlockProcessingEnhancedMixer.sent,
    FunctionBlockProcessingEnhancedMixer.sent]
  by_cases hstate : x.statusSelector = statusProgramableState
  · have hlevel : x.statusSelector ≠ statusLevel := by
      rw [hstate]
      decide
    simp only [if_pos hstate]
    refine (zeroLength_eq_iff fun hlength => ?_).trans
      ⟨fun h => ⟨fun _ => h, fun h' => absurd h' hlevel⟩, fun h => h.1 hstate⟩
    rw [hlength]
    rfl
  · by_cases hlevel : x.statusSelector = statusLevel
    · simp only [if_neg hstate, if_pos hlevel]
      refine (zeroLength_eq_iff fun hlength => ?_).trans
        ⟨fun h => ⟨fun h' => absurd h' hstate, fun _ => h⟩, fun h => h.2 hlevel⟩
      rw [hlength]
      rfl
    · simp only [if_neg hstate, if_neg hlevel]
      exact iff_of_true trivial ⟨fun h => absurd h hstate, fun h => absurd h hlevel⟩

theorem copy_bytes_iff (junk : UInt16) (x : Plain) : (x.copy junk).bytes = x.bytes ↔ x.Kept := by
  cases x with
  | mixer x => exact copy_bytes_mixer_iff junk x
  | enhancedMixer x => exact copy_bytes_enhancedMixer_iff junk x
  | _ => exact iff_of_true rfl trivial

theorem faithful_infoType_iff (junk : UInt16)
    (hc : h.cells p = some (.infoType t parts)) (hpart : (parts t).Leads (DataAt h.cells)) :
    Faithful junk h p ↔
      (t ∈ infoTypes → ∃ q, parts t = .set q ∧ serialize h.cells 3 q = some (freshBytes t)) := by
  by_cases ht : t ∈ infoTypes
  · cases hq : parts t with
    | null =>
      have hnone : clone junk depth p h = none := by
        rw [depth, clone, deref_bind hc]
        dsimp only
        rw [if_pos ht, hq]
        rfl
      apply iff_of_false
      · rintro ⟨q, h', hsome, -⟩
        rw [hnone] at hsome
        cases hsome
      · intro hset
        obtain ⟨q, hq', -⟩ := hset ht
        cases hq'
    | wild =>
      rw [hq] at hpart
      exact hpart.elim
    | set q =>
      rw [hq] at hpart
      rw [(becomes_infoType junk ht hc hq hpart).faithful_iff]
      change _ = serialize h.cells (3 + 1) p ↔ _
      rw [serialize_infoType ht hc hq]
      constructor
      · intro hbytes _
        refine ⟨q, rfl, ?_⟩
        have hmap : Option.map ([t] ++ ·) (some (freshBytes t)) =
            Option.map ([t] ++ ·) (serialize h.cells 3 q) := hbytes
        exact (Option.map_injective (List.append_right_injective [t]) hmap).symm
      · intro hset
        obtain ⟨_, ⟨⟩, hbytes⟩ := hset ht
        rw [hbytes]
        rfl
  · rw [(becomes_infoType_unknown junk ht hc).faithful_iff]
    refine iff_of_true ?_ fun h => absurd h ht
    rw [depth, serialize, hc]
    exact (if_neg ht).symm

theorem faithful_streams_iff (junk : UInt16) (hs : StreamsAt h.cells p) :
    Faithful junk h p ↔ Kept h.cells p := by
  cases hs with
  | sync hc =>
    rw [(becomes_plain junk hc 3).faithful_iff, Kept, hc]
    exact iff_of_true (serialize_plain hc 3).symm trivial
  | @compound _ _ _ qs xs hc hxs =>
    rw [Kept, hc]
    cases hxs with
    | nil =>
      rw [(becomes_compound_nil junk hc 2).faithful_iff]
      exact iff_of_true (serialize_compound hc .nil 2).symm rfl
    | cons hx hxs => exact iff_of_false (not_faithful_compound junk hc (.cons hx hxs)) (by simp)

theorem faithful_formatInformation_iff (junk : UInt16) {streams : Pointer}
    (hc : h.cells p = some (.formatInformation root level1 level2 streams))
    (hs : streams.Leads (StreamsAt h.cells)) : Faithful junk h p ↔
      ∀ q frequency rateControl number infos, streams = .set q →
        h.cells q = some (.compound frequency rateControl number infos) → infos = [] := by
  cases streams with
  | null =>
    have hb : Becomes junk depth h p (some (hierarchyBytes root level1 level2 ++ [])) := by
      refine ⟨h.next, h.push (.formatInformation root level1 level2 .null), ?_, h.le_push _,
        Owned.leaf le_rfl fun m hm => ?_⟩
      · rw [depth, clone, deref_bind hc]
        rfl
      · rw [depth, serialize, hm]
        rfl
    rw [hb.faithful_iff]
    refine iff_of_true ?_ (by simp)
    rw [depth, serialize, hc]
    rfl
  | wild => exact hs.elim
  | set q =>
    cases hs with
    | sync hq =>
      rw [(becomes_formatInformation hc (becomes_plain junk hq 2)).faithful_iff]
      refine iff_of_true ?_ ?_
      · rw [depth, serialize_formatInformation hc, serialize_plain hq]
        rfl
      · rintro _ _ _ _ _ ⟨⟩ hq'
        rw [hq] at hq'
        cases hq'
    | compound hq hxs =>
      cases hxs with
      | nil =>
        rw [(becomes_formatInformation hc (becomes_compound_nil junk hq 1)).faithful_iff]
        refine iff_of_true ?_ ?_
        · rw [depth, serialize_formatInformation hc, serialize_compound hq .nil]
          rfl
        · rintro _ _ _ _ _ ⟨⟩ hq'
          rw [hq] at hq'
          cases hq'
          rfl
      | cons hx hxs =>
        refine iff_of_false (not_faithful_formatInformation junk hc hq (.cons hx hxs))
          fun hnil => ?_
        exact absurd (hnil q _ _ _ _ rfl hq) (by simp)

theorem faithful_feature_iff (junk : UInt16) {volume lrBalance : Pointer}
    (hc : h.cells p = some (.feature length channel selector volume lrBalance))
    (hvolume : volume.Leads fun q => ∃ x, h.cells q = some (.plain (.volume x)))
    (hlrBalance : lrBalance.Leads fun q => ∃ x, h.cells q = some (.plain (.lrBalance x))) :
    Faithful junk h p ↔ (selector = featureLRBalance → volume = .null ∨ lrBalance = .null) := by
  have hserialize := serialize_feature hc 3
  cases volume with
  | wild => exact hvolume.elim
  | null =>
    refine iff_of_true ?_ fun _ => .inl rfl
    cases lrBalance with
    | wild => exact hlrBalance.elim
    | null =>
      have hb : Becomes junk depth h p (featureBytes length channel selector none none) := by
        refine (makes_new (c := Cell.feature length channel selector .wild .wild) fun m p hm =>
          serialize_feature hm 3).congr ?_
        rw [depth, clone, deref_bind hc]
        rfl
      rw [hb.faithful_iff]
      exact hserialize.symm
    | set q =>
      obtain ⟨x, hx⟩ := hlrBalance
      rw [(becomes_feature_lrBalance junk hc hx 2).faithful_iff, depth, hserialize]
      exact congrArg (featureBytes length channel selector none) (serialize_plain hx 2).symm
  | set q =>
    obtain ⟨x, hx⟩ := hvolume
    rw [(becomes_feature_volume junk hc hx 2).faithful_iff, depth, hserialize]
    have hused : (Pointer.set q).use (serialize h.cells 3) = some (Plain.volume x).bytes :=
      serialize_plain hx 2
    rw [hused]
    cases lrBalance with
    | wild => exact hlrBalance.elim
    | null => exact iff_of_true rfl fun _ => .inr rfl
    | set r =>
      obtain ⟨y, hy⟩ := hlrBalance
      have hused' : (Pointer.set r).use (serialize h.cells 3) = some (Plain.lrBalance y).bytes :=
        serialize_plain hy 2
      rw [hused', featureBytes, featureBytes]
      by_cases hselector : selector = featureLRBalance
      · have hne : selector ≠ featureVolume := by
          rw [hselector]
          decide
        rw [if_neg hne, if_pos hselector, if_neg hne, if_pos hselector]
        exact iff_of_false (by simp) fun h => absurd (h hselector) (by simp)
      · rw [if_neg hselector, if_neg hselector]
        exact iff_of_true rfl fun h => absurd h hselector

theorem faithful_processing_iff (junk : UInt16) {mixer enhancedMixer : Pointer}
    (hc : h.cells p = some (.processing length plug input output mixer enhancedMixer))
    (hmixer : mixer.Leads fun q => ∃ x, h.cells q = some (.plain (.mixer x)))
    (henhanced : enhancedMixer.Leads fun q => ∃ x, h.cells q = some (.plain (.enhancedMixer x))) :
    Faithful junk h p ↔
      ∃ q x, mixer = .set q ∧ h.cells q = some (.plain (.mixer x)) ∧ (Plain.mixer x).Kept := by
  have hserialize := serialize_processing hc 3
  cases mixer with
  | wild => exact hmixer.elim
  | null =>
    rw [(becomes_processing_null junk hc henhanced 2).faithful_iff, depth, hserialize]
    refine iff_of_false ?_ (by simp)
    cases enhancedMixer with
    | wild => exact henhanced.elim
    | null => exact nofun
    | set q =>
      obtain ⟨x, hx⟩ := henhanced
      have hused : (Pointer.set q).ifSet (serialize h.cells 3) (some []) =
          some (Plain.enhancedMixer x).bytes := serialize_plain hx 2
      rw [hused]
      exact nofun
  | set q =>
    obtain ⟨x, hx⟩ := hmixer
    have hused : (Pointer.set q).ifSet (serialize h.cells 3)
        (enhancedMixer.ifSet (serialize h.cells 3) (some [])) = some (Plain.mixer x).bytes :=
      serialize_plain hx 2
    rw [(becomes_processing_mixer junk hc hx 2).faithful_iff, depth, hserialize, hused,
      Option.map_some, Option.some_inj, List.append_cancel_left_eq, copy_bytes_iff]
    constructor
    · intro hkept
      exact ⟨q, x, rfl, hx, hkept⟩
    · rintro ⟨_, y, ⟨⟩, hy, hkept⟩
      rw [hx] at hy
      cases hy
      exact hkept

/-- Which objects have a clone that writes the same bytes and has parts of its own. -/
theorem clone_faithful_iff (junk : UInt16) (h : Heap Cell) (p : ℕ) (hp : WellFormed h.cells p) :
    Faithful junk h p ↔ Kept h.cells p := by
  cases hp with
  | data hd =>
    cases hd with
    | @plain x hc =>
      rw [(becomes_plain junk hc 3).faithful_iff, depth, serialize_plain hc, Option.some_inj,
        copy_bytes_iff, Kept, hc]
    | plugInput hc hx =>
      rw [(becomes_plugInput junk hc hx 1).faithful_iff, Kept, hc]
      exact iff_of_true rfl trivial
    | plugOutput hc hxs =>
      rw [(becomes_plugOutput junk hc hxs 1).faithful_iff, Kept, hc]
      exact iff_of_true rfl trivial
  | plugAddress hx =>
    rw [(hx.becomes junk 2).faithful_iff, depth, hx.serialize_eq]
    obtain ⟨q, hc, -⟩ := hx
    rw [Kept, hc]
    exact iff_of_true rfl trivial
  | infoType hc hpart =>
    rw [faithful_infoType_iff junk hc hpart, Kept, hc]
  | streams hs => exact faithful_streams_iff junk hs
  | formatInformation hc hs =>
    rw [faithful_formatInformation_iff junk hc hs, Kept, hc]
  | feature hc hvolume hlrBalance =>
    rw [faithful_feature_iff junk hc hvolume hlrBalance, Kept, hc]
  | processing hc hmixer henhanced =>
    rw [faithful_processing_iff junk hc hmixer henhanced, Kept, hc]

/-- A heap with the given objects. -/
def heapOf (cells : List Cell) : Heap Cell where
  cells a := cells[a]?
  next := cells.length
  fresh _ ha := List.getElem?_eq_none ha

def outputHeap : Heap Cell :=
  heapOf [.plugOutput 1 [1], .plugAddress 0x01 0x00 2,
    .plain (.plugAddressData (.unit 0x00 0x02 0xFF 0xFF 0xFF))]

theorem output_cloned : WellFormed outputHeap.cells 0 ∧ Faithful 0 outputHeap 0 := by
  have haddresses : List.Forall₂ (AddressAt outputHeap.cells) [1]
      [⟨0x01, 0x00, .unit 0x00 0x02 0xFF 0xFF 0xFF⟩] := .cons ⟨2, rfl, rfl⟩ .nil
  have hp : WellFormed outputHeap.cells 0 := .data (.plugOutput rfl haddresses)
  exact ⟨hp, (clone_faithful_iff 0 outputHeap 0 hp).mpr trivial⟩

def changedHeap : Heap Cell :=
  heapOf [.infoType 0x00 (fun i => if i = 0x00 then .set 1 else .null), .plain (.plugType ⟨0x03⟩),
    .compound 0x04 0x00 1 [3], .plain (.streamFormatInfo ⟨2, 0x06⟩)]

/-- The clone of the info type says that the type is unknown, that of the stream has the infos of
the original. -/
theorem clones_changed : WellFormed changedHeap.cells 0 ∧ ¬ Faithful 0 changedHeap 0 ∧
    WellFormed changedHeap.cells 2 ∧ ¬ Faithful 0 changedHeap 2 := by
  have hinfo : List.Forall₂ (InfoAt changedHeap.cells) [3] [⟨2, 0x06⟩] := .cons rfl .nil
  have hdata : DataAt changedHeap.cells 1 := .plain (x := .plugType ⟨0x03⟩) rfl
  have hcell : changedHeap.cells 0 =
      some (.infoType 0x00 fun i => if i = 0x00 then .set 1 else .null) := rfl
  refine ⟨.infoType hcell hdata, ?_, .streams (.compound rfl hinfo), ?_⟩
  · rw [faithful_infoType_iff 0 hcell hdata]
    intro hset
    obtain ⟨_, ⟨⟩, hbytes⟩ := hset (by decide)
    exact absurd hbytes (by decide)
  · exact not_faithful_compound 0 rfl hinfo

end Ffado.Avc.Clone
