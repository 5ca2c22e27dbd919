import Mathlib.Data.Fintype.BigOperators
import Mathlib.Data.Nat.Bitwise
import HeapWatch.Site
/-!
# Which sites share a slot

A slot has fourteen bits. The lower eight are bits 4 to 11 of the address as they stand; the upper
six are bits 12 to 17 mixed with bits 0 to 5, so that bits 4 and 5 are used twice. What lies above
bit 17 is lost. Of the bits used, the lowest four are all that a slot leaves open: with these four
bits beside it, it tells the other fourteen.
-/

namespace HeapWatch.Site

/-- The bits of an address from `low` on, `width` of them, as a number. -/
def bits (site : Site) (low width : Nat) : Nat := site.address.toNat / 2 ^ low % 2 ^ width

/-- The two parts of an address that are mixed in its slot. -/
def mixed (site : Site) : Nat := site.bits 12 6 ^^^ site.bits 0 6

theorem bits_lt (site : Site) (low width : Nat) : site.bits low width < 2 ^ width :=
  Nat.mod_lt _ (Nat.two_pow_pos width)

theorem testBit_bits (site : Site) (low width i : Nat) :
    (site.bits low width).testBit i = (decide (i < width) && site.address.toNat.testBit (low + i)) := by
  rw [bits, Nat.testBit_mod_two_pow, Nat.testBit_div_two_pow, Nat.add_comm]

/-- A slot is computed without a bound, except that bits are lost at the upper end. -/
theorem slot_eq_and (site : Site) : (site.slot : Nat) =
    (site.address.toNat >>> 4 ^^^ site.address.toNat <<< 8 % 2 ^ 64) &&& (2 ^ 14 - 1) := by
  change site.slotNumber.toNat = _
  simp [slotNumber, key]

/-- **A slot as a number**: its lower bits are bits 4 to 11, and above them are the mixed ones. -/
theorem slot_eq (site : Site) : (site.slot : Nat) = 2 ^ 8 * site.mixed + site.bits 4 8 := by
  refine Nat.eq_of_testBit_eq fun i => ?_
  rw [slot_eq_and, Nat.testBit_two_pow_mul_add _ (site.bits_lt 4 8), Nat.testBit_and,
    Nat.testBit_two_pow_sub_one, Nat.testBit_xor, Nat.testBit_shiftRight, Nat.testBit_mod_two_pow,
    Nat.testBit_shiftLeft, mixed, Nat.testBit_xor, testBit_bits, testBit_bits, testBit_bits]
  by_cases low : i < 8
  · have above : ¬ 8 ≤ i := Nat.not_le.2 low
    have inside : i < 14 := Nat.lt_trans low (by decide)
    simp [low, above, inside]
  · by_cases inside : i < 14
    · have high : i - 8 < 6 := by omega
      have word : i < 64 := by omega
      have up : 8 ≤ i := Nat.le_of_not_lt low
      have same : 12 + (i - 8) = 4 + i := by omega
      simp [low, inside, high, word, up, same]
    · have high : ¬ i - 8 < 6 := by omega
      simp [low, inside, high]

/-! ## Two sites of one slot -/

/-- **Sites share a slot** exactly if both parts of it are the same. -/
theorem slot_eq_iff {a b : Site} : a.slot = b.slot ↔ a.bits 4 8 = b.bits 4 8 ∧ a.mixed = b.mixed := by
  have ha := a.bits_lt 4 8
  have hb := b.bits_lt 4 8
  rw [Fin.ext_iff, slot_eq, slot_eq]
  constructor
  · intro h
    omega
  · rintro ⟨low, high⟩
    rw [low, high]

theorem bits_eq_iff_of_mixed_eq {a b : Site} (h : a.mixed = b.mixed) :
    a.bits 0 6 = b.bits 0 6 ↔ a.bits 12 6 = b.bits 12 6 := by
  unfold mixed at h
  constructor
  · intro low
    rw [low] at h
    exact Nat.xor_left_injective h
  · intro high
    rw [high] at h
    exact Nat.xor_right_injective h

theorem slot_congr {a b : Site} (h : a.bits 0 18 = b.bits 0 18) : a.slot = b.slot := by
  have parts : a.bits 4 8 = b.bits 4 8 ∧ a.bits 12 6 = b.bits 12 6 ∧ a.bits 0 6 = b.bits 0 6 := by
    unfold bits at *
    omega
  obtain ⟨middle, high, low⟩ := parts
  exact slot_eq_iff.2 ⟨middle, by rw [mixed, high, low, mixed]⟩

/-- **The slot and the lowest four bits** tell the other bits that count. -/
theorem bits_eq_of_slot_eq {a b : Site} (h : a.slot = b.slot) (low : a.bits 0 4 = b.bits 0 4) :
    a.bits 0 18 = b.bits 0 18 := by
  obtain ⟨middle, mixed⟩ := slot_eq_iff.1 h
  -- bits 4 and 5 are in the middle part too, so the lower of the mixed parts is known
  have lower : a.bits 0 6 = b.bits 0 6 := by
    unfold bits at *
    omega
  have upper := (bits_eq_iff_of_mixed_eq mixed).1 lower
  unfold bits at *
  omega

theorem eq_of_page_eq {a b : Site} (page : a.address.toNat / 4096 = b.address.toNat / 4096)
    (h : a.slot = b.slot) : a = b := by
  obtain ⟨middle, mixed⟩ := slot_eq_iff.1 h
  have upper : a.bits 12 6 = b.bits 12 6 := by
    unfold bits
    omega
  have lower := (bits_eq_iff_of_mixed_eq mixed).2 upper
  have address : a.address.toNat = b.address.toNat := by
    unfold bits at *
    omega
  obtain ⟨a⟩ := a
  obtain ⟨b⟩ := b
  exact congrArg Site.mk (UInt64.toNat_inj.1 address)

/-! ## Windows of addresses -/

/-- The sites of 2^18 addresses in a row, which go on from 0 after the last address. -/
def window (start : UInt64) (i : Fin (2 ^ 18)) : Site := ⟨start + UInt64.ofNat i⟩

theorem window_bits_injective (start : UInt64) :
    Function.Injective fun i => (window start i).bits 0 18 := by
  intro i j h
  have hi := i.isLt
  have hj := j.isLt
  simp only [bits, window, UInt64.toNat_add, UInt64.toNat_ofNat'] at h
  exact Fin.ext (by omega)

/-- **Every slot has sixteen sites of a window**, one for each choice of the lowest four bits. -/
theorem card_window (start : UInt64) (slot : Fin slotCount) :
    (Finset.univ.filter fun i => (window start i).slot = slot).card = 16 := by
  let halves (i : Fin (2 ^ 18)) : Fin slotCount × Fin (2 ^ 4) :=
    ((window start i).slot, ⟨(window start i).bits 0 4, bits_lt _ 0 4⟩)
  have injective : Function.Injective halves := by
    intro i j h
    obtain ⟨same, low⟩ := Prod.mk.inj h
    exact window_bits_injective start (bits_eq_of_slot_eq same (Fin.mk.inj low))
  have sizes : Fintype.card (Fin (2 ^ 18)) = Fintype.card (Fin slotCount × Fin (2 ^ 4)) := by
    rw [Fintype.card_prod, Fintype.card_fin, Fintype.card_fin, Fintype.card_fin]
    rfl
  have bijective : halves.Bijective :=
    (Fintype.bijective_iff_injective_and_card halves).2 ⟨injective, sizes⟩
  calc (Finset.univ.filter fun i => (window start i).slot = slot).card
      = (({slot} : Finset (Fin slotCount)) ×ˢ (Finset.univ : Finset (Fin (2 ^ 4)))).card :=
        Finset.card_bijective halves bijective fun i => by simp [halves, eq_comm]
    _ = 16 := by
      rw [Finset.card_product, Finset.card_singleton, Finset.card_univ, Fintype.card_fin]
      rfl

/-- **The law of collisions.** Every site has one of the 16384 slots. Two sites share theirs exactly
if bits 4 to 11 of the addresses agree and bits 12 to 17 mixed with bits 0 to 5 agree; so no bit
above these counts. Two sites of one page of 4096 addresses never do. Of 2^18 addresses in a row,
wherever they start, every slot has sixteen. -/
theorem slots_collide_exactly :
    (∀ a : Site, (a.slot : Nat) < 16384) ∧
    (∀ a b : Site, a.slot = b.slot ↔ a.bits 4 8 = b.bits 4 8 ∧
      a.bits 12 6 ^^^ a.bits 0 6 = b.bits 12 6 ^^^ b.bits 0 6) ∧
    (∀ a b : Site, a.address.toNat % 2 ^ 18 = b.address.toNat % 2 ^ 18 → a.slot = b.slot) ∧
    (∀ a b : Site, a.address.toNat / 4096 = b.address.toNat / 4096 → a ≠ b → a.slot ≠ b.slot) ∧
    ∀ (start : UInt64) (slot : Fin slotCount),
      (Finset.univ.filter fun i => (window start i).slot = slot).card = 16 := by
  refine ⟨fun a => a.slot.isLt, fun a b => slot_eq_iff, ?_, ?_, card_window⟩
  · intro a b h
    refine slot_congr ?_
    unfold bits
    omega
  · intro a b page ne h
    exact ne (eq_of_page_eq page h)

/-- Bit 0 of one address stands for bit 12 of another, and bit 18 for nothing. Two neighbours in a
page have different slots. A window that goes round at the upper end has sixteen sites of the last
slot. -/
theorem slots_collide_exactly_mixed :
    slot ⟨0x1⟩ = slot ⟨0x1000⟩ ∧ slot ⟨0xFFFFFFFFFFFC0001⟩ = slot ⟨0x1⟩ ∧
    slot ⟨0x1000⟩ ≠ slot ⟨0x1001⟩ ∧
    (Finset.univ.filter fun i => (window 0xFFFFFFFFFFFFFFF0 i).slot = ⟨16383, by decide⟩).card = 16 := by
  obtain ⟨-, shared, counted, page, windows⟩ := slots_collide_exactly
  exact ⟨(shared _ _).2 (by decide), counted _ _ (by decide), page _ _ (by decide) (by decide),
    windows _ _⟩

end HeapWatch.Site
