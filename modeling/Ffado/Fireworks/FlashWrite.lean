import Ffado.Fireworks.Flash

/-!
# Which addresses are written

The commands that `writeFlash` issues are compared with the list of all quadlets of the request.
The check of the arguments and the loop are in 32 bit arithmetic: a request of 2^30 quadlets or more
is cut short, and one whose last block ends at the end of the address space is never through.
-/
namespace Ffado.Fireworks

open CircularMemory MachineInt WrappingLoop

/-- The addresses and values that a command writes. -/
def EfcFlashWriteCmd.quads (c : EfcFlashWriteCmd) : List (ℕ × Quadlet) :=
  (List.range c.nbQuadlets).map fun i => (c.address + 4 * i, c.data i)

def requested (start : ℕ) (buffer : ℕ → Quadlet) (n : ℕ) : List (ℕ × Quadlet) :=
  (List.range n).map fun i => (start + 4 * i, buffer i)

theorem requested_add (start : ℕ) (buffer : ℕ → Quadlet) (m n : ℕ) :
    requested start buffer (m + n) = requested start buffer m ++
      EfcFlashWriteCmd.quads ⟨start + 4 * m, n, pointer buffer m⟩ := by
  simp [requested, EfcFlashWriteCmd.quads, pointer, List.range_add, Function.comp_def, Nat.mul_add,
    Nat.add_assoc]

@[simp] theorem length_requested (start : ℕ) (buffer : ℕ → Quadlet) (n : ℕ) :
    (requested start buffer n).length = n := by
  simp [requested]

theorem requested_prefix (start : ℕ) (buffer : ℕ → Quadlet) {m n : ℕ} (h : m ≤ n) :
    requested start buffer m <+: requested start buffer n := by
  obtain ⟨k, rfl⟩ := Nat.exists_eq_add_of_le h
  rw [requested_add]
  exact List.prefix_append _ _

namespace FlashDevice

variable {d : FlashDevice} {start n i : ℕ}

variable {len : ℕ}

/-- The state in front of a round. -/
def Written (start n : ℕ) (buffer : ℕ → Quadlet) (i : ℕ) (s : WriteState) : Prop :=
  s.target = min (64 * i) n ∧
    s.issued.flatMap EfcFlashWriteCmd.quads = requested start buffer (min (64 * i) n)

variable {buffer : ℕ → Quadlet} {s s' : WriteState} {ok : Bool}

theorem writeBlock_cases (hi : i < (n + 63) / 64) (hs : Written start n buffer i s)
    (h : d.writeBlock buffer (start + 4 * n) (start + efcFlashSizeBytes * i) s = (s', ok)) :
    Written start n buffer (i + 1) s' ∧ ∃ c, s'.issued = s.issued ++ [c] ∧
      doEfcOverAVC (d.write s.issued.length c) = ok := by
  obtain ⟨htarget, hissued⟩ := hs
  have hsize : ¬ efcFlashSizeQuads < min 64 (n - 64 * i) := by
    have hquads : efcFlashSizeQuads = 64 := rfl
    omega
  have hnext : min (64 * i) n + min 64 (n - 64 * i) = min (64 * (i + 1)) n := by omega
  have hfull : min (64 * i) n = 64 * i := by omega
  rw [writeBlock, quadsInBlock_eq hi, send, if_neg hsize, Prod.mk.injEq] at h
  obtain ⟨rfl, hok⟩ := h
  refine ⟨⟨?_, ?_⟩, _, rfl, hok⟩
  · simp only [htarget, hnext]
  · have hcmd : efcFlashSizeBytes * i = 4 * min (64 * i) n := by
      rw [hfull, efcFlashSizeBytes]
      omega
    simp only [List.flatMap_append, List.flatMap_singleton, hissued]
    rw [← hnext, requested_add, htarget, hcmd]

/-- The loop up to a stop address that is not too close to the end of the address space. -/
theorem write_loop (hfit : Fits start n) :
    ∃ fuel s ok, loop (2 ^ 32) efcFlashSizeBytes (start + 4 * n)
        (d.writeBlock buffer (start + 4 * n)) fuel start ⟨0, []⟩ = some (s, ok) ∧
      (ok = true → s.issued.flatMap EfcFlashWriteCmd.quads = requested start buffer n) ∧
      (ok = false → s.issued.flatMap EfcFlashWriteCmd.quads <+: requested start buffer n ∧
        ∃ cs c, s.issued = cs ++ [c] ∧ doEfcOverAVC (d.write cs.length c) = false) := by
  have hrounds := @rounds_eq start n
  have hfit' : start + efcFlashSizeBytes * rounds efcFlashSizeBytes start
    (start + 4 * n) < 2 ^ 32 := by
    rw [hrounds]
    exact hfit
  have hfirst : Written start n buffer 0 ⟨0, []⟩ := ⟨by simp, by simp [requested]⟩
  have hstep : ∀ i < rounds efcFlashSizeBytes start (start + 4 * n), ∀ s s',
      Written start n buffer i s →
      d.writeBlock buffer (start + 4 * n) (start + efcFlashSizeBytes * i) s = (s', true) →
      Written start n buffer (i + 1) s' := by
    intro i hi s s' hs h
    rw [hrounds] at hi
    exact (writeBlock_cases hi hs h).1
  obtain ⟨s, ok, hrun, htrue, hfalse⟩ :=
    loop_returns (Written start n buffer) (by decide) hfit' hfirst hstep (Nat.lt_add_one _)
  rw [hrounds] at htrue hfalse
  refine ⟨_, s, ok, hrun, ?_, ?_⟩
  · intro hok
    have hall : min (64 * ((n + 63) / 64)) n = n := by omega
    rw [(htrue hok).2, hall]
  · intro hok
    obtain ⟨j, hj, t, ht, hbody⟩ := hfalse hok
    obtain ⟨hwritten, c, hissued, hrefused⟩ := writeBlock_cases hj ht hbody
    refine ⟨?_, t.issued, c, hissued, hrefused⟩
    rw [hwritten.2]
    exact requested_prefix start buffer (by omega)

/-- Close to the end of the address space the loop goes on until a command is refused. -/
theorem write_loop_endless (haccept : ∀ k c, doEfcOverAVC (d.write k c) = true)
    (hstart : start < 2 ^ 32) (hfit : ¬ Fits start n) (fuel : ℕ) :
    loop (2 ^ 32) efcFlashSizeBytes (start + 4 * n) (d.writeBlock buffer (start + 4 * n)) fuel start
      ⟨0, []⟩ = none := by
  have hwrap : 2 ^ 32 ≤ start + efcFlashSizeBytes * rounds efcFlashSizeBytes start
    (start + 4 * n) := by
    rw [rounds_eq]
    exact Nat.not_lt.mp hfit
  apply loop_eq_none (by decide) (by decide) hwrap hstart _ fuel _ hstart rfl
  intro a s
  have hsize : ¬ efcFlashSizeQuads < quadsInBlock a (start + 4 * n) := by
    rw [quadsInBlock]
    split_ifs <;> omega
  rw [writeBlock, send, if_neg hsize]
  exact haccept _ _

/-- Nothing is written and false is returned; or the quadlets of the request are written in turn,
all of them unless a command is refused by the device, which ends the function with false. -/
def WritesRequest (d : FlashDevice) (start len : ℕ) (buffer : ℕ → Quadlet)
    (issued : List EfcFlashWriteCmd) (ok : Bool) : Prop :=
  (issued = [] ∧ ok = false) ∨
    (ok = true ∧ issued.flatMap EfcFlashWriteCmd.quads = requested start buffer len) ∨
    (ok = false ∧ issued.flatMap EfcFlashWriteCmd.quads <+: requested start buffer len ∧
      ∃ cs c, issued = cs ++ [c] ∧ doEfcOverAVC (d.write cs.length c) = false)

theorem writeFlash_eq (h : ¬ Refused start len) (fuel : ℕ) :
    d.writeFlash fuel start len buffer =
      (loop (2 ^ 32) efcFlashSizeBytes (start + 4 * (u32 (len * 4) / 4))
        (d.writeBlock buffer (start + 4 * (u32 (len * 4) / 4))) fuel start ⟨0, []⟩).map
          fun (s, ok) => (s.issued, ok) := by
  rw [writeFlash, ite_of_not_refused _ _ h, stopAddr_eq h]

/-- On any device, a request of less than 2^30 quadlets that succeeds has been written as a
whole. -/
theorem writeFlash_true {fuel : ℕ} (hstart : start < 2 ^ 32) (hlt : len * 4 < 2 ^ 32)
    {issued : List EfcFlashWriteCmd}
    (hrun : d.writeFlash fuel start len buffer = some (issued, true)) :
    issued.flatMap EfcFlashWriteCmd.quads = requested start buffer len := by
  have hrefused : ¬ Refused start len := by
    intro hrefused
    rw [writeFlash, ite_of_refused _ _ hrefused] at hrun
    cases hrun
  rw [writeFlash_eq hrefused, u32_div_four_eq_iff.mpr hlt, Option.map_eq_some_iff] at hrun
  obtain ⟨⟨s, ok'⟩, hloop, heq⟩ := hrun
  obtain ⟨rfl, rfl⟩ := Prod.mk.inj heq
  by_cases hfit : Fits start len
  · obtain ⟨fuel', s', ok'', hloop', htrue, -⟩ := @write_loop d start len buffer hfit
    obtain ⟨rfl, rfl⟩ := Prod.mk.inj (loop_agrees hloop hloop')
    exact htrue rfl
  · have hwrap : 2 ^ 32 ≤
        start + efcFlashSizeBytes * rounds efcFlashSizeBytes start (start + 4 * len) := by
      rw [rounds_eq]
      exact Nat.not_lt.mp hfit
    exact absurd hloop (loop_ne_true (by decide) (by decide) hwrap hstart fuel hstart rfl)

/-- A device that accepts all commands, and answers a read with zeros. -/
def compliant : FlashDevice where
  write _ _ := ⟨true, true, .ok⟩
  read _ _ nbQuadlets := ⟨⟨true, true, .ok⟩, nbQuadlets, fun _ => 0⟩
  erase _ _ := ⟨true, true, .ok⟩
  getStatus _ := ⟨true, true, .ok⟩

theorem writeFlash_compliant {fuel : ℕ} (hstart : start < 2 ^ 32) (h : ¬ Refused start len)
    {issued : List EfcFlashWriteCmd}
    (hrun : compliant.writeFlash fuel start len buffer = some (issued, ok)) :
    ok = true ∧ Fits start (u32 (len * 4) / 4) ∧
      issued.flatMap EfcFlashWriteCmd.quads = requested start buffer (u32 (len * 4) / 4) := by
  rw [writeFlash_eq h, Option.map_eq_some_iff] at hrun
  obtain ⟨⟨s, ok'⟩, hloop, heq⟩ := hrun
  obtain ⟨rfl, rfl⟩ := Prod.mk.inj heq
  by_cases hfit : Fits start (u32 (len * 4) / 4)
  · obtain ⟨fuel', s', ok'', hloop', htrue, hfalse⟩ :=
      @write_loop compliant start (u32 (len * 4) / 4) buffer hfit
    obtain ⟨rfl, rfl⟩ := Prod.mk.inj (loop_agrees hloop hloop')
    cases ok' with
    | true => exact ⟨rfl, hfit, htrue rfl⟩
    | false =>
      obtain ⟨-, cs, c, -, hrefused⟩ := hfalse rfl
      cases hrefused
  · rw [write_loop_endless (fun _ _ => rfl) hstart hfit] at hloop
    cases hloop

/-- For every device the request is written as it should, just if its arguments are refused, or it
has less than 2^30 quadlets and its last block ends before the address space does. -/
theorem writeFlash_iff (start len : Fin (2 ^ 32)) (buffer : ℕ → Quadlet) :
    (∀ d : FlashDevice, ∃ fuel issued ok, d.writeFlash fuel start len buffer = some (issued, ok) ∧
      d.WritesRequest start len buffer issued ok) ↔
    Refused start len ∨ (len * 4 < (2 ^ 32 : ℕ) ∧ Fits start len) := by
  by_cases hrefused : Refused start len
  · refine iff_of_true ?_ (Or.inl hrefused)
    intro d
    exact ⟨0, [], false, ite_of_refused _ _ hrefused, Or.inl ⟨rfl, rfl⟩⟩
  · rw [or_iff_right hrefused]
    constructor
    · intro h
      obtain ⟨fuel, issued, ok, hrun, hwrites⟩ := h compliant
      obtain ⟨rfl, hfit, hquads⟩ := writeFlash_compliant start.isLt hrefused hrun
      rcases hwrites with ⟨-, hok⟩ | ⟨-, hall⟩ | ⟨hok, -⟩
      · cases hok
      · have hlength := congrArg List.length (hquads.symm.trans hall)
        rw [length_requested, length_requested] at hlength
        exact ⟨u32_div_four_eq_iff.mp hlength, hlength ▸ hfit⟩
      · cases hok
    · rintro ⟨hlt, hfit⟩ d
      have hlength := u32_div_four_eq_iff.mpr hlt
      obtain ⟨fuel, s, ok, hloop, htrue, hfalse⟩ := @write_loop d start len buffer hfit
      refine ⟨fuel, s.issued, ok, ?_, ?_⟩
      · rw [writeFlash_eq hrefused, hlength, hloop]
        rfl
      · cases ok with
        | true => exact Or.inr (Or.inl ⟨rfl, htrue rfl⟩)
        | false => exact Or.inr (Or.inr ⟨rfl, hfalse rfl⟩)

/-- 2^30 quadlets are written by no command at all. -/
theorem nothing_written :
    compliant.writeFlash 1 0 (2 ^ 30) (fun _ => 0) = some ([], true) ∧
      ¬ compliant.WritesRequest 0 (2 ^ 30) (fun _ => 0) [] true := by
  constructor
  · rfl
  · rintro (⟨-, h⟩ | ⟨-, h⟩ | ⟨h, -⟩)
    · cases h
    · have hlength := congrArg List.length h
      rw [length_requested] at hlength
      cases hlength
    · cases h

end FlashDevice

end Ffado.Fireworks
