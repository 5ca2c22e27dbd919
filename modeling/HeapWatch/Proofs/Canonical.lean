import HeapWatch.Proofs.Recorded
import HeapWatch.Profile
/-!
# Canonical profiles

A canonical profile ascends strictly by slot and lists no size 0, so it is determined by the size
that it has for each slot, and bisection finds that size (`Profile.sizeAt_eq_largestFor`). Two
functions make profiles, and both make canonical ones (`Profile.canonical_capture`,
`Profile.canonical_ofReadings`).
-/

namespace HeapWatch

/-! ## What readings list for a slot -/

namespace Reading

theorem largestFor_le_iff {readings : List Reading} {slot b : UInt64} :
    largestFor readings slot ≤ b ↔ ∀ r ∈ readings, r.slot = slot → r.size ≤ b := by
  induction readings with
  | nil => simp [largestFor, UInt64.zero_le]
  | cons r readings ih =>
    rw [List.forall_mem_cons, ← ih, largestFor, List.foldr_cons, ← largestFor]
    by_cases h : r.slot = slot
    · simp only [h, if_true, Std.max_le_iff, true_imp_iff]
    · simp only [h, if_false, false_imp_iff, true_and]

theorem lt_largestFor_iff {readings : List Reading} {slot b : UInt64} :
    b < largestFor readings slot ↔ ∃ r ∈ readings, r.slot = slot ∧ b < r.size := by
  rw [← UInt64.not_le, largestFor_le_iff]
  simp only [not_forall, UInt64.not_le, exists_prop]

theorem largestFor_append (first second : List Reading) (slot : UInt64) :
    largestFor (first ++ second) slot = max (largestFor first slot) (largestFor second slot) := by
  refine word_eq_of_upper_bounds fun b => ?_
  rw [Std.max_le_iff, largestFor_le_iff, largestFor_le_iff, largestFor_le_iff,
    List.forall_mem_append]

theorem largestFor_congr {first second : List Reading} (h : ∀ r, r ∈ first ↔ r ∈ second)
    (slot : UInt64) : largestFor first slot = largestFor second slot := by
  refine word_eq_of_upper_bounds fun b => ?_
  simp only [largestFor_le_iff, h]

/-- Whether readings are nowhere above others is decided by what is listed. -/
theorem forall_largestFor_le_iff {first second : List Reading} :
    (∀ slot, largestFor first slot ≤ largestFor second slot) ↔
      ∀ r ∈ first, r.size ≤ largestFor second r.slot := by
  constructor
  · intro h r hr
    exact largestFor_le_iff.1 (h r.slot) r hr rfl
  · intro h slot
    exact largestFor_le_iff.2 fun r hr e => e ▸ h r hr

theorem largestFor_of_absent {readings : List Reading} {slot : UInt64}
    (h : ∀ r ∈ readings, r.slot ≠ slot) : largestFor readings slot = 0 :=
  UInt64.le_antisymm (largestFor_le_iff.2 fun r hr e => absurd e (h r hr)) UInt64.zero_le

/-- Of readings of which none is 0, a slot has one exactly if its largest size is not 0. -/
theorem exists_slot_iff {readings : List Reading} (hz : ∀ r ∈ readings, r.size ≠ 0)
    {slot : UInt64} : (∃ r ∈ readings, r.slot = slot) ↔ largestFor readings slot ≠ 0 := by
  constructor
  · rintro ⟨r, hr, e⟩ hnone
    have le : r.size ≤ 0 := hnone ▸ largestFor_le_iff.1 (UInt64.le_refl _) r hr e
    exact hz r hr (UInt64.le_antisymm le UInt64.zero_le)
  · intro hne
    by_contra habsent
    exact hne (largestFor_of_absent fun r hr e => habsent ⟨r, hr, e⟩)

theorem eq_of_mem_ascending {readings : List Reading}
    (ha : readings.Pairwise fun a b => a.slot < b.slot) {r s : Reading} (hr : r ∈ readings)
    (hs : s ∈ readings) (e : r.slot = s.slot) : r = s := by
  induction readings with
  | nil => cases hr
  | cons first readings ih =>
    obtain ⟨hf, ha⟩ := List.pairwise_cons.1 ha
    rcases List.mem_cons.1 hr with er | hr' <;> rcases List.mem_cons.1 hs with es | hs'
    · rw [er, es]
    · exact absurd (e ▸ er ▸ hf s hs') (UInt64.lt_irrefl _)
    · exact absurd (e ▸ es ▸ hf r hr') (UInt64.lt_irrefl _)
    · exact ih ha hr' hs'

theorem largestFor_of_mem {readings : List Reading}
    (ha : readings.Pairwise fun a b => a.slot < b.slot) {r : Reading} (hr : r ∈ readings) :
    largestFor readings r.slot = r.size := by
  refine word_eq_of_upper_bounds fun b => ?_
  rw [largestFor_le_iff]
  constructor
  · intro h
    exact h r hr rfl
  · intro h s hs e
    rw [eq_of_mem_ascending ha hs hr e]
    exact h

end Reading

namespace Profile

/-! ## Bisection -/

theorem sizeBetween_of_absent {readings : Array Reading} {slot : UInt64} {low high : Nat}
    {bound : high ≤ readings.size} (h : ∀ r ∈ readings, r.slot ≠ slot) :
    sizeBetween readings slot low high bound = 0 := by
  fun_induction sizeBetween readings slot low high bound with
  | case1 low high bound hlt middle r e => exact absurd e (h r (Array.getElem_mem _))
  | case2 low high bound hlt middle r hne hbelow ih => exact ih
  | case3 low high bound hlt middle r hne hbelow ih => exact ih
  | case4 => rfl

theorem sizeBetween_of_getElem {readings : Array Reading}
    (ha : readings.toList.Pairwise fun a b => a.slot < b.slot) {low high : Nat}
    {bound : high ≤ readings.size} {i : Nat} (hi : i < readings.size) (hl : low ≤ i)
    (hh : i < high) :
    sizeBetween readings readings[i].slot low high bound = readings[i].size := by
  have ascending : ∀ {j k : Nat} (hj : j < readings.size) (hk : k < readings.size), j < k →
      readings[j].slot < readings[k].slot := fun hj hk hjk =>
    List.pairwise_iff_getElem.1 ha _ _ hj hk hjk
  generalize hs : readings[i].slot = slot
  fun_induction sizeBetween readings slot low high bound with
  | case1 low high bound hlt middle r e =>
    exact congrArg Reading.size (Reading.eq_of_mem_ascending ha
      (Array.getElem_mem_toList _) (Array.getElem_mem_toList _) (e.trans hs.symm))
  | case2 low high bound hlt middle r hne hbelow ih =>
    -- the middle is below the slot, so the reading is behind it
    refine ih (Nat.lt_of_not_le fun hle => ?_) hh
    rcases Nat.lt_or_eq_of_le hle with hlt' | rfl
    · exact UInt64.lt_irrefl _ (UInt64.lt_trans (hs ▸ ascending hi (by omega) hlt') hbelow)
    · exact hne hs
  | case3 low high bound hlt middle r hne hbelow ih =>
    refine ih hl (Nat.lt_of_not_le fun hle => ?_)
    rcases Nat.lt_or_eq_of_le hle with hlt' | rfl
    · exact hbelow (hs ▸ ascending (by omega) hi hlt')
    · exact hne hs
  | case4 low high bound hlt => omega

theorem sizeAt_of_mem {p : Profile} (hc : p.Canonical) {r : Reading} (hr : r ∈ p.toList) :
    p.sizeAt r.slot = r.size := by
  obtain ⟨i, hi, rfl⟩ := List.mem_iff_getElem.1 hr
  exact sizeBetween_of_getElem hc.1 hi (Nat.zero_le i) hi

theorem sizeAt_of_absent {p : Profile} {slot : UInt64} (h : ∀ r ∈ p.toList, r.slot ≠ slot) :
    p.sizeAt slot = 0 :=
  sizeBetween_of_absent fun r hr => h r (Array.mem_toList_iff.2 hr)

/-- **Bisection finds what is listed.** -/
theorem sizeAt_eq_largestFor {p : Profile} (hc : p.Canonical) (slot : UInt64) :
    p.sizeAt slot = Reading.largestFor p.toList slot := by
  by_cases h : ∃ r ∈ p.toList, r.slot = slot
  · obtain ⟨r, hr, rfl⟩ := h
    rw [sizeAt_of_mem hc hr, Reading.largestFor_of_mem hc.1 hr]
  · have ha : ∀ r ∈ p.toList, r.slot ≠ slot := fun r hr e => h ⟨r, hr, e⟩
    rw [sizeAt_of_absent ha, Reading.largestFor_of_absent ha]

/-! ## Canonical form -/

end Profile

namespace Reading

theorem le_iff {a b : Reading} :
    a.le b = true ↔ a.slot < b.slot ∨ a.slot = b.slot ∧ a.size ≤ b.size := by
  simp [le]

theorem le_trans (a b c : Reading) (hab : a.le b) (hbc : b.le c) : a.le c := by
  rw [le_iff] at *
  rcases hab with hab | ⟨eab, hab⟩ <;> rcases hbc with hbc | ⟨ebc, hbc⟩
  · exact Or.inl (UInt64.lt_trans hab hbc)
  · exact Or.inl (ebc ▸ hab)
  · exact Or.inl (eab ▸ hbc)
  · exact Or.inr ⟨eab.trans ebc, UInt64.le_trans hab hbc⟩

theorem le_total (a b : Reading) : (a.le b || b.le a) = true := by
  rw [Bool.or_eq_true, le_iff, le_iff]
  by_cases e : a.slot = b.slot
  · rcases UInt64.le_total a.size b.size with h | h
    · exact Or.inl (Or.inr ⟨e, h⟩)
    · exact Or.inr (Or.inr ⟨e.symm, h⟩)
  · rcases UInt64.lt_or_lt_of_ne e with h | h
    · exact Or.inl (Or.inl h)
    · exact Or.inr (Or.inl h)

/-- Of neighbours with one slot only the last is kept. -/
def lastOfEach : List Reading → List Reading
  | [] => []
  | [r] => [r]
  | r :: next :: rest =>
    if r.slot = next.slot then lastOfEach (next :: rest) else r :: lastOfEach (next :: rest)

theorem othersAfter_concat (slot : UInt64) (readings : List Reading) (next r : Reading) :
    othersAfter slot (readings ++ [next, r]) =
      if r.slot = next.slot then othersAfter slot (readings ++ [next])
      else othersAfter slot (readings ++ [next]) ++ [r] := by
  induction readings generalizing slot with
  | nil =>
    by_cases hn : next.slot = slot
    · by_cases hr : r.slot = slot <;> simp [othersAfter, hn, hr]
    · by_cases hr : r.slot = next.slot <;> simp [othersAfter, hn, hr]
  | cons first readings ih =>
    rw [List.cons_append, List.cons_append, othersAfter, othersAfter]
    by_cases hf : first.slot = slot
    · rw [if_pos hf, if_pos hf, ih]
    · rw [if_neg hf, if_neg hf, ih]
      split <;> rfl

theorem firstOfEach_concat (readings : List Reading) (next r : Reading) :
    firstOfEach (readings ++ [next, r]) =
      if r.slot = next.slot then firstOfEach (readings ++ [next])
      else firstOfEach (readings ++ [next]) ++ [r] := by
  cases readings with
  | nil => by_cases h : r.slot = next.slot <;> simp [firstOfEach, othersAfter, h]
  | cons first readings =>
    rw [List.cons_append, List.cons_append, firstOfEach, firstOfEach, othersAfter_concat]
    split <;> rfl

/-- **The first ones from behind are the last ones**, in their order. -/
theorem reverse_firstOfEach_reverse (readings : List Reading) :
    (firstOfEach readings.reverse).reverse = lastOfEach readings := by
  fun_induction lastOfEach readings with
  | case1 => rfl
  | case2 => rfl
  | case3 r next rest e ih =>
    rw [← ih, List.reverse_cons, List.reverse_cons, List.append_assoc, List.cons_append,
      List.nil_append, firstOfEach_concat, if_pos e]
  | case4 r next rest e ih =>
    rw [← ih, List.reverse_cons, List.reverse_cons, List.append_assoc, List.cons_append,
      List.nil_append, firstOfEach_concat, if_neg e, List.reverse_append]
    rfl

theorem lastOfEach_sublist (readings : List Reading) :
    (lastOfEach readings).Sublist readings := by
  fun_induction lastOfEach readings with
  | case1 => exact List.Sublist.refl _
  | case2 => exact List.Sublist.refl _
  | case3 r next rest e ih => exact ih.cons r
  | case4 r next rest e ih => exact ih.cons_cons r

theorem ascending_lastOfEach {readings : List Reading} (hs : readings.Pairwise fun a b => a.le b) :
    (lastOfEach readings).Pairwise fun a b => a.slot < b.slot := by
  fun_induction lastOfEach readings with
  | case1 => exact List.Pairwise.nil
  | case2 r => exact List.pairwise_singleton _ _
  | case3 r next rest e ih => exact ih (List.pairwise_cons.1 hs).2
  | case4 r next rest e ih =>
    obtain ⟨hr, hs⟩ := List.pairwise_cons.1 hs
    refine List.pairwise_cons.2 ⟨fun s hm => ?_, ih hs⟩
    -- `next` is above `r`, and `s` is `next` or above it
    have above : r.slot < next.slot :=
      (le_iff.1 (hr next List.mem_cons_self)).resolve_right fun h => e h.1
    rcases List.mem_cons.1 ((lastOfEach_sublist _).subset hm) with rfl | hm
    · exact above
    · rcases le_iff.1 ((List.pairwise_cons.1 hs).1 s hm) with h | h
      · exact UInt64.lt_trans above h
      · exact h.1 ▸ above

theorem exists_mem_lastOfEach {readings : List Reading} (hs : readings.Pairwise fun a b => a.le b)
    {r : Reading} (hr : r ∈ readings) :
    ∃ s ∈ lastOfEach readings, s.slot = r.slot ∧ r.size ≤ s.size := by
  fun_induction lastOfEach readings generalizing r with
  | case1 => cases hr
  | case2 s => exact ⟨r, hr, rfl, UInt64.le_refl _⟩
  | case3 first next rest e ih =>
    obtain ⟨hfirst, hrest⟩ := List.pairwise_cons.1 hs
    rcases List.mem_cons.1 hr with rfl | hr
    · -- `next` is of the same slot and no smaller, and what stands for it stands for `r`
      obtain ⟨s, hm, hslot, hsize⟩ := ih hrest List.mem_cons_self
      have smaller : r.size ≤ next.size := by
        rcases le_iff.1 (hfirst next List.mem_cons_self) with below | same
        · exact absurd (e ▸ below) (UInt64.lt_irrefl _)
        · exact same.2
      exact ⟨s, hm, hslot.trans e.symm, UInt64.le_trans smaller hsize⟩
    · exact ih hrest hr
  | case4 first next rest e ih =>
    rcases List.mem_cons.1 hr with rfl | hr
    · exact ⟨r, List.mem_cons_self, rfl, UInt64.le_refl _⟩
    · obtain ⟨s, hm, h⟩ := ih (List.pairwise_cons.1 hs).2 hr
      exact ⟨s, List.mem_cons_of_mem _ hm, h⟩

theorem lastOfEach_of_ascending {readings : List Reading}
    (ha : readings.Pairwise fun a b => a.slot < b.slot) : lastOfEach readings = readings := by
  fun_induction lastOfEach readings with
  | case1 => rfl
  | case2 => rfl
  | case3 r next rest e ih =>
    exact absurd (e ▸ (List.pairwise_cons.1 ha).1 next List.mem_cons_self) (UInt64.lt_irrefl _)
  | case4 r next rest e ih => rw [ih (List.pairwise_cons.1 ha).2]

end Reading

namespace Profile

/-- What the profile of some readings lists: after sorting, the last reading of each slot. -/
theorem toList_ofReadings (readings : List Reading) : (ofReadings readings).toList =
    Reading.lastOfEach ((readings.filter (·.size != 0)).mergeSort Reading.le) := by
  rw [ofReadings, toList_ofList, Reading.reverse_firstOfEach_reverse]

theorem mem_of_mem_ofReadings {readings : List Reading} {r : Reading}
    (hr : r ∈ (ofReadings readings).toList) : r ∈ readings ∧ r.size ≠ 0 := by
  rw [toList_ofReadings] at hr
  have hm := List.mem_mergeSort.1 ((Reading.lastOfEach_sublist _).subset hr)
  simpa using hm

/-- **Whatever the readings, the profile made of them is canonical.** -/
theorem canonical_ofReadings (readings : List Reading) : (ofReadings readings).Canonical := by
  refine ⟨?_, fun r hr => (mem_of_mem_ofReadings hr).2⟩
  rw [toList_ofReadings]
  exact Reading.ascending_lastOfEach (List.pairwise_mergeSort Reading.le_trans Reading.le_total _)

/-- **Canonical form keeps what is listed for each slot.** -/
theorem largestFor_ofReadings (readings : List Reading) (slot : UInt64) :
    Reading.largestFor (ofReadings readings).toList slot = Reading.largestFor readings slot := by
  refine word_eq_of_upper_bounds fun b => ?_
  rw [Reading.largestFor_le_iff, Reading.largestFor_le_iff]
  constructor
  · intro h r hr e
    by_cases hz : r.size = 0
    · exact hz ▸ UInt64.zero_le
    · have kept : r ∈ (readings.filter (·.size != 0)).mergeSort Reading.le :=
        List.mem_mergeSort.2 (List.mem_filter.2 ⟨hr, bne_iff_ne.2 hz⟩)
      obtain ⟨s, hs, hslot, hsize⟩ := Reading.exists_mem_lastOfEach
        (List.pairwise_mergeSort Reading.le_trans Reading.le_total _) kept
      rw [toList_ofReadings] at h
      exact UInt64.le_trans hsize (h s hs (hslot.trans e))
  · intro h r hr e
    exact h r (mem_of_mem_ofReadings hr).1 e

theorem mem_toList_of_canonical {p : Profile} (hc : p.Canonical) {r : Reading} :
    r ∈ p.toList ↔ r.size ≠ 0 ∧ Reading.largestFor p.toList r.slot = r.size := by
  constructor
  · intro hr
    exact ⟨hc.2 r hr, Reading.largestFor_of_mem hc.1 hr⟩
  · rintro ⟨hne, hsize⟩
    obtain ⟨slot, size⟩ := r
    by_cases h : ∃ s ∈ p.toList, s.slot = slot
    · obtain ⟨⟨_, listed⟩, hs, rfl⟩ := h
      have same : listed = size := (Reading.largestFor_of_mem hc.1 hs).symm.trans hsize
      exact same ▸ hs
    · rw [Reading.largestFor_of_absent fun s hs e => h ⟨s, hs, e⟩] at hsize
      exact absurd hsize.symm hne

/-- **A canonical profile is determined by what it lists for each slot.** -/
theorem eq_of_largestFor {p q : Profile} (hp : p.Canonical) (hq : q.Canonical)
    (h : ∀ slot, Reading.largestFor p.toList slot = Reading.largestFor q.toList slot) : p = q := by
  have distinct : ∀ {p : Profile}, p.Canonical → p.toList.Nodup := by
    intro p hc
    refine hc.1.imp fun hlt e => ?_
    exact UInt64.lt_irrefl _ (e ▸ hlt)
  have members : ∀ r, r ∈ p.toList ↔ r ∈ q.toList := by
    intro r
    rw [mem_toList_of_canonical hp, mem_toList_of_canonical hq, h]
  have same : p.toList = q.toList := by
    have perm := (List.perm_ext_iff_of_nodup (distinct hp) (distinct hq)).2 members
    refine perm.eq_of_pairwise (fun a b _ _ hab hba => ?_) hp.1 hq.1
    exact absurd (UInt64.lt_trans hab hba) (UInt64.lt_irrefl _)
  rw [← ofList_toList p, same, ofList_toList]

/-- **Readings have one canonical profile exactly if they list the same for each slot.** -/
theorem ofReadings_eq_iff {first second : List Reading} :
    ofReadings first = ofReadings second ↔
      ∀ slot, Reading.largestFor first slot = Reading.largestFor second slot := by
  constructor
  · intro h slot
    rw [← largestFor_ofReadings first, h, largestFor_ofReadings]
  · intro h
    refine eq_of_largestFor (canonical_ofReadings first) (canonical_ofReadings second) fun slot => ?_
    rw [largestFor_ofReadings, largestFor_ofReadings, h]

theorem ofReadings_of_ascending {readings : List Reading}
    (ha : readings.Pairwise fun a b => a.slot < b.slot) :
    ofReadings readings = ofList (readings.filter (·.size != 0)) := by
  have kept : (readings.filter (·.size != 0)).Pairwise fun a b => a.slot < b.slot := ha.filter _
  have sorted : (readings.filter (·.size != 0)).Pairwise fun a b => a.le b :=
    kept.imp fun h => Reading.le_iff.2 (Or.inl h)
  rw [← ofList_toList (ofReadings readings), toList_ofReadings, List.mergeSort_of_pairwise sorted,
    Reading.lastOfEach_of_ascending kept]

theorem ofReadings_of_canonical {p : Profile} (hc : p.Canonical) : ofReadings p.toList = p := by
  have kept : p.toList.filter (·.size != 0) = p.toList :=
    List.filter_eq_self.2 fun r hr => by simpa using hc.2 r hr
  rw [ofReadings_of_ascending hc.1, kept, ofList_toList]

/-- **Canonical form changes nothing exactly where it is there already.** -/
theorem ofReadings_eq_self_iff (p : Profile) : ofReadings p.toList = p ↔ p.Canonical :=
  ⟨fun h => h ▸ canonical_ofReadings p.toList, ofReadings_of_canonical⟩

end Profile

/-! ## Captured tables -/

theorem toNat_slot (slot : Fin slotCount) : slot.val.toUInt64.toNat = slot.val := by
  have h : slot.val < 2 ^ 64 := Nat.lt_trans slot.isLt (by decide)
  exact UInt64.toNat_ofNat_of_lt h

theorem slot_lt_iff {a b : Fin slotCount} : a.val.toUInt64 < b.val.toUInt64 ↔ a < b := by
  rw [UInt64.lt_iff_toNat_lt, toNat_slot, toNat_slot, Fin.lt_def]

theorem slot_inj {a b : Fin slotCount} (h : a.val.toUInt64 = b.val.toUInt64) : a = b :=
  Fin.ext (by rw [← toNat_slot a, h, toNat_slot])

/-- The readings of all slots of a table, the empty ones included, by ascending slot. -/
def SizeTable.readings (t : SizeTable) : List Reading :=
  t.toList.map fun (slot, size) => ⟨slot.val.toUInt64, size⟩

theorem SizeTable.mem_readings {t : SizeTable} {r : Reading} :
    r ∈ t.readings ↔ ∃ slot : Fin slotCount, r = ⟨slot.val.toUInt64, t.sizeAt slot⟩ := by
  simp [readings, SizeTable.toList, eq_comm]

theorem SizeTable.ascending_readings (t : SizeTable) :
    t.readings.Pairwise fun a b => a.slot < b.slot := by
  refine List.pairwise_map.2 (List.pairwise_map.2 ?_)
  exact (List.pairwise_lt_finRange _).imp fun h => slot_lt_iff.2 h

/-- What the readings of a table list for a number is what the slot of that number holds, or 0 if
there is no such slot. -/
theorem SizeTable.largestFor_readings (t : SizeTable) (number : UInt64) :
    Reading.largestFor t.readings number = (t.size? number).getD 0 := by
  by_cases h : number.toNat < slotCount
  · have numbered : (number.toNat).toUInt64 = number := UInt64.ofNat_toNat
    have listed : ⟨number, t.sizeAt ⟨number.toNat, h⟩⟩ ∈ t.readings :=
      mem_readings.2 ⟨⟨number.toNat, h⟩, by rw [numbered]⟩
    have largest := Reading.largestFor_of_mem t.ascending_readings listed
    rw [t.size?_eq_sizeAt ⟨number.toNat, h⟩ number rfl]
    exact largest
  · rw [(t.size?_eq_none_iff number).2 (Nat.le_of_not_lt h)]
    refine Reading.largestFor_of_absent fun r hr e => h ?_
    obtain ⟨slot, rfl⟩ := mem_readings.1 hr
    rw [← e, toNat_slot]
    exact slot.isLt

/-- **A captured table** is put together slot by slot, and is the canonical profile of the readings
of all slots. -/
theorem Profile.capture_eq_ofReadings (t : SizeTable) : capture t = ofReadings t.readings := by
  rw [ofReadings_of_ascending t.ascending_readings, SizeTable.readings, List.filter_map]
  rfl

theorem Profile.canonical_capture (t : SizeTable) : (capture t).Canonical := by
  rw [capture_eq_ofReadings]
  exact canonical_ofReadings t.readings

theorem Profile.sizeAt_capture (t : SizeTable) (number : UInt64) :
    (capture t).sizeAt number = (t.size? number).getD 0 := by
  rw [sizeAt_eq_largestFor (canonical_capture t), capture_eq_ofReadings, largestFor_ofReadings,
    t.largestFor_readings]

/-! ## Captured runs -/

/-- The profile of the largest sizes that a sequence of calls asks for after its last reset. -/
def Call.profile (calls : List Call) : Profile :=
  .ofList (((List.finRange slotCount).filter fun slot => largestIn calls slot != 0).map fun slot =>
    ⟨slot.val.toUInt64, largestIn calls slot⟩)

theorem Call.mem_profile {calls : List Call} {r : Reading} :
    r ∈ (Call.profile calls).toList ↔
      ∃ slot : Fin slotCount, r = ⟨slot.val.toUInt64, largestIn calls slot⟩ ∧
        largestIn calls slot ≠ 0 := by
  simp only [profile, Profile.toList_ofList, List.mem_map, List.mem_filter, List.mem_finRange,
    true_and, bne_iff_ne]
  constructor
  · rintro ⟨slot, hne, rfl⟩
    exact ⟨slot, rfl, hne⟩
  · rintro ⟨slot, rfl, hne⟩
    exact ⟨slot, hne, rfl⟩

/-- What the profile of calls lists for the number of a slot, or for any other number, by its upper
bounds. -/
theorem Call.largestFor_profile_le_iff {calls : List Call} {number b : UInt64} :
    Reading.largestFor (Call.profile calls).toList number ≤ b ↔
      ∀ slot : Fin slotCount, slot.val.toUInt64 = number → largestIn calls slot ≤ b := by
  rw [Reading.largestFor_le_iff]
  constructor
  · intro h slot e
    by_cases hz : largestIn calls slot = 0
    · exact hz ▸ UInt64.zero_le
    · exact h _ (mem_profile.2 ⟨slot, rfl, hz⟩) e
  · intro h r hr e
    obtain ⟨slot, rfl, -⟩ := mem_profile.1 hr
    exact h slot e

theorem Call.largestFor_profile (calls : List Call) (slot : Fin slotCount) :
    Reading.largestFor (Call.profile calls).toList slot.val.toUInt64 = largestIn calls slot := by
  refine word_eq_of_upper_bounds fun b => ?_
  rw [largestFor_profile_le_iff]
  constructor
  · intro h
    exact h slot rfl
  · intro h slot' e
    exact slot_inj e ▸ h

namespace Profile

section Run

variable {σ : Type} (source : Source σ)

/-- **What is captured after a sequence of calls** on an empty table. -/
theorem capture_run (memory : Memory) (state : σ) (calls : List Call) :
    capture (Watch.run source ⟨.empty, memory, state⟩ calls).table = Call.profile calls := by
  rw [capture, SizeTable.used, Watch.toList_run, List.filter_map, List.map_map]
  rfl

theorem capture_run_reset (w : Watch σ) (calls : List Call) :
    capture (w.reset.run source calls).table = Call.profile calls := by
  have cleared : w.table.cleared = .empty :=
    SizeTable.ext_sizeAt fun slot => by rw [SizeTable.sizeAt_cleared, SizeTable.sizeAt_empty]
  rw [Watch.reset, cleared, capture_run]

end Run

theorem canonical_profile (calls : List Call) : (Call.profile calls).Canonical := by
  have h := capture_run ⟨fun _ _ state => (none, state)⟩ (.filled 0) () calls
  exact h ▸ canonical_capture _

end Profile

-- It goes through all slots, which no comparison of terms should do.
attribute [irreducible] Call.profile

end HeapWatch
