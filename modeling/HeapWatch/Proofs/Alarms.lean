import HeapWatch.Proofs.Canonical
import HeapWatch.Profile.Alarm
/-!
# Alarms and the requests behind them

A threshold is exact although its product is computed on words: a product beyond 64 bits is above
every size. So a larger size of a slot raises an alarm whenever a smaller one does, and nothing is
lost by keeping only the largest request of every slot (`Profile.alarms_capture_run`).
-/

namespace HeapWatch

namespace Threshold

theorem any_product?_iff {baseline factor observed : UInt64} :
    (product? baseline factor).any (· < observed) = true ↔
      baseline.toNat * factor.toNat < observed.toNat := by
  cases hp : product? baseline factor with
  | some limit =>
    rw [product?_eq_some_iff.1 hp, Option.any_some, decide_eq_true_eq, UInt64.lt_iff_toNat_lt]
  | none =>
    have beyond : UInt64.size ≤ baseline.toNat * factor.toNat := by
      unfold product? at hp
      split at hp
      · cases hp
      · rename_i h; exact Nat.le_of_not_lt h
    have := observed.toNat_lt_size
    constructor
    · intro h; cases h
    · intro h; omega

/-- **The threshold is exact**: no product is ever too large for it. -/
theorem isExceeded_iff {t : Threshold} {baseline observed : UInt64} :
    t.isExceeded baseline observed = true ↔
      t.leastSize ≤ observed ∧ baseline < observed ∧
        (baseline = 0 ∨ baseline.toNat * t.growthFactor.toNat < observed.toNat) := by
  unfold isExceeded
  by_cases hl : observed < t.leastSize
  · simp [hl, UInt64.not_le.2 hl]
  · by_cases hb : observed ≤ baseline
    · simp [hb, UInt64.not_lt.2 hb]
    · simp [hl, hb, UInt64.not_lt.1 hl, UInt64.not_le.1 hb, any_product?_iff]

/-- Whether a size is alarming over a baseline, said of numbers without a bound. -/
def IsPassed (t : Threshold) (baseline observed : Nat) : Prop :=
  t.leastSize.toNat ≤ observed ∧ baseline < observed ∧
    (baseline = 0 ∨ baseline * t.growthFactor.toNat < observed)

instance (t : Threshold) (baseline observed : Nat) : Decidable (t.IsPassed baseline observed) :=
  inferInstanceAs (Decidable (_ ∧ _ ∧ _))

theorem isExceeded_iff_isPassed {t : Threshold} {baseline observed : UInt64} :
    t.isExceeded baseline observed = true ↔ t.IsPassed baseline.toNat observed.toNat := by
  have zero : baseline = 0 ↔ baseline.toNat = 0 := UInt64.toNat_inj.symm
  rw [isExceeded_iff, UInt64.le_iff_toNat_le, UInt64.lt_iff_toNat_lt, zero]
  rfl

/-- **A lower threshold is exceeded sooner**, as is any threshold by a larger size or over a smaller
baseline. -/
theorem isExceeded_mono {t t' : Threshold} (hl : t'.leastSize ≤ t.leastSize)
    (hf : t'.growthFactor ≤ t.growthFactor) {baseline smaller observed larger : UInt64}
    (hb : smaller ≤ baseline) (ho : observed ≤ larger)
    (h : t.isExceeded baseline observed = true) : t'.isExceeded smaller larger = true := by
  obtain ⟨least, above, factor⟩ := isExceeded_iff.1 h
  refine isExceeded_iff.2 ⟨UInt64.le_trans hl (UInt64.le_trans least ho),
    UInt64.lt_of_le_of_lt hb (UInt64.lt_of_lt_of_le above ho), ?_⟩
  rw [UInt64.le_iff_toNat_le] at hb hf ho
  rcases factor with zero | times
  · -- below a baseline of 0 there is no other
    rw [zero] at hb
    exact Or.inl (UInt64.toNat_inj.1 (Nat.le_zero.1 hb))
  · have product : smaller.toNat * t'.growthFactor.toNat ≤
        baseline.toNat * t.growthFactor.toNat := Nat.mul_le_mul hb hf
    exact Or.inr (by omega)

theorem isExceeded_of_le {t : Threshold} {baseline observed larger : UInt64}
    (h : t.isExceeded baseline observed = true) (hle : observed ≤ larger) :
    t.isExceeded baseline larger = true :=
  isExceeded_mono (UInt64.le_refl _) (UInt64.le_refl _) (UInt64.le_refl _) hle h

theorem ne_zero_of_isExceeded {t : Threshold} {baseline observed : UInt64}
    (h : t.isExceeded baseline observed = true) : observed ≠ 0 := by
  rintro rfl
  exact UInt64.not_lt_zero (isExceeded_iff.1 h).2.1

end Threshold

namespace Profile

theorem alarms_eq (run baseline : Profile) (t : Threshold) :
    run.alarms baseline t =
      (run.toList.filter fun r => t.isExceeded (baseline.sizeAt r.slot) r.size).map fun r =>
        ⟨r.slot, baseline.sizeAt r.slot, r.size⟩ := by
  unfold alarms
  induction run.toList with
  | nil => rfl
  | cons r readings ih =>
    by_cases h : t.isExceeded (baseline.sizeAt r.slot) r.size
    · simp [alarm?, h, ih]
    · simp [alarm?, h, ih]

theorem mem_alarms {run baseline : Profile} {t : Threshold} {a : Alarm} :
    a ∈ run.alarms baseline t ↔
      ∃ r ∈ run.toList, t.isExceeded (baseline.sizeAt r.slot) r.size = true ∧
        a = ⟨r.slot, baseline.sizeAt r.slot, r.size⟩ := by
  simp only [alarms_eq, List.mem_map, List.mem_filter, and_assoc, eq_comm (a := a)]

/-- **An alarm of a canonical run** is one of a slot whose size exceeds the threshold, and shows it. -/
theorem mem_alarms_of_canonical {run : Profile} (hr : run.Canonical) {baseline : Profile}
    {t : Threshold} {a : Alarm} :
    a ∈ run.alarms baseline t ↔
      t.isExceeded (baseline.sizeAt a.slot) (run.sizeAt a.slot) = true ∧
        a = ⟨a.slot, baseline.sizeAt a.slot, run.sizeAt a.slot⟩ := by
  rw [mem_alarms]
  constructor
  · rintro ⟨r, hm, he, rfl⟩
    dsimp only
    rw [sizeAt_of_mem hr hm]
    exact ⟨he, rfl⟩
  · rintro ⟨he, ha⟩
    have listed : ⟨a.slot, run.sizeAt a.slot⟩ ∈ run.toList :=
      (mem_toList_of_canonical hr).2
        ⟨Threshold.ne_zero_of_isExceeded he, (sizeAt_eq_largestFor hr a.slot).symm⟩
    exact ⟨_, listed, he, ha⟩

theorem ascending_alarms {run : Profile} (ha : run.toList.Pairwise fun a b => a.slot < b.slot)
    (baseline : Profile) (t : Threshold) :
    (run.alarms baseline t).Pairwise fun a b => a.slot < b.slot := by
  rw [alarms_eq]
  exact List.pairwise_map.2 (ha.filter _)

/-- **Alarms are exact.** A size exceeds the threshold over a baseline exactly if it does so in
arithmetic without a bound, so that no product beyond 64 bits changes the verdict. And over a
canonical baseline, the alarms of a run that may list anything are exactly its readings that pass the
threshold in this way over what the baseline lists for their slots, in the order of the run. -/
theorem alarms_are_exact (t : Threshold) :
    (∀ baseline observed : UInt64, t.isExceeded baseline observed = true ↔
      t.IsPassed baseline.toNat observed.toNat) ∧
    ∀ run baseline : Profile, baseline.Canonical →
      run.alarms baseline t =
        (run.toList.filter fun r =>
          t.IsPassed (Reading.largestFor baseline.toList r.slot).toNat r.size.toNat).map fun r =>
            ⟨r.slot, Reading.largestFor baseline.toList r.slot, r.size⟩ := by
  refine ⟨fun _ _ => Threshold.isExceeded_iff_isPassed, fun run baseline hb => ?_⟩
  have passes : ∀ r ∈ run.toList, t.isExceeded (Reading.largestFor baseline.toList r.slot) r.size =
      decide (t.IsPassed (Reading.largestFor baseline.toList r.slot).toNat r.size.toNat) := by
    intro r _
    rw [Bool.eq_iff_iff, Threshold.isExceeded_iff_isPassed, decide_eq_true_eq]
  rw [alarms_eq]
  simp only [sizeAt_eq_largestFor hb]
  rw [List.filter_congr passes]

/-- The product overflows for slots 3 and 9, where it would wrap to 0 and to less than the size. In
slot 5 the limit is met once and passed once, and slot 4 has no baseline. -/
theorem alarms_are_exact_overflow :
    let baseline : Profile := ofList [⟨3, 0x8000000000000000⟩, ⟨5, 3⟩, ⟨9, 5⟩]
    let run : Profile := ofList [⟨9, 0xFFFFFFFFFFFFFFFF⟩, ⟨5, 0xC000000000000001⟩, ⟨4, 7⟩, ⟨4, 6⟩,
      ⟨3, 0xFFFFFFFFFFFFFFFF⟩, ⟨5, 0xC000000000000000⟩]
    baseline.Canonical ∧
    run.alarms baseline ⟨7, 0x4000000000000000⟩ =
      [⟨5, 3, 0xC000000000000001⟩, ⟨4, 0, 7⟩] := by
  intro baseline run
  have hb : baseline.Canonical := by decide
  obtain ⟨-, listed⟩ := alarms_are_exact ⟨7, 0x4000000000000000⟩
  refine ⟨hb, ?_⟩
  rw [listed run baseline hb]
  decide +kernel

/-- **The alarms over what is listed**, in whatever order: one for each slot whose largest size
exceeds the threshold over the largest that the baseline lists, by ascending slot. -/
theorem alarms_ofReadings (run baseline : List Reading) (t : Threshold) :
    ∃ slots : List UInt64, slots.Pairwise (· < ·) ∧
      (∀ slot, slot ∈ slots ↔
        t.isExceeded (Reading.largestFor baseline slot) (Reading.largestFor run slot) = true) ∧
      (ofReadings run).alarms (ofReadings baseline) t = slots.map fun slot =>
        ⟨slot, Reading.largestFor baseline slot, Reading.largestFor run slot⟩ := by
  have hr := canonical_ofReadings run
  have hb := canonical_ofReadings baseline
  have raised : ∀ {a : Alarm}, a ∈ (ofReadings run).alarms (ofReadings baseline) t ↔
      t.isExceeded (Reading.largestFor baseline a.slot) (Reading.largestFor run a.slot) = true ∧
        a = ⟨a.slot, Reading.largestFor baseline a.slot, Reading.largestFor run a.slot⟩ := by
    intro a
    rw [mem_alarms_of_canonical hr, sizeAt_eq_largestFor hr, sizeAt_eq_largestFor hb,
      largestFor_ofReadings, largestFor_ofReadings]
  refine ⟨((ofReadings run).alarms (ofReadings baseline) t).map Alarm.slot, ?_, ?_, ?_⟩
  · exact List.pairwise_map.2 (ascending_alarms hr.1 _ t)
  · intro slot
    rw [List.mem_map]
    constructor
    · rintro ⟨a, ha, rfl⟩
      exact (raised.1 ha).1
    · intro he
      exact ⟨⟨slot, Reading.largestFor baseline slot, Reading.largestFor run slot⟩,
        raised.2 ⟨he, rfl⟩, rfl⟩
  · rw [List.map_map]
    exact (List.map_id _).symm.trans (List.map_congr_left fun a ha => (raised.1 ha).2)

/-- **Alarms are monotone.** A slot of a canonical run raises an alarm exactly if its size exceeds the
threshold over the baseline's. Let no slot of a run be smaller than in another run, no slot of its
baseline larger, and neither limit of its threshold higher: then every slot that raised an alarm
raises one again, and it shows no smaller a size over no larger a baseline. -/
theorem alarms_mono {run run' : Profile} (hr : run.Canonical) (hr' : run'.Canonical)
    {baseline baseline' : Profile} (larger : ∀ slot, run.sizeAt slot ≤ run'.sizeAt slot)
    (smaller : ∀ slot, baseline'.sizeAt slot ≤ baseline.sizeAt slot) {t t' : Threshold}
    (hl : t'.leastSize ≤ t.leastSize) (hf : t'.growthFactor ≤ t.growthFactor) :
    (∀ slot, (∃ a ∈ run.alarms baseline t, a.slot = slot) ↔
      t.isExceeded (baseline.sizeAt slot) (run.sizeAt slot) = true) ∧
    ∀ a ∈ run.alarms baseline t, ∃ a' ∈ run'.alarms baseline' t',
      a'.slot = a.slot ∧ a.observed ≤ a'.observed ∧ a'.baseline ≤ a.baseline := by
  constructor
  · intro slot
    constructor
    · rintro ⟨a, ha, rfl⟩
      exact ((mem_alarms_of_canonical hr).1 ha).1
    · intro he
      exact ⟨⟨slot, baseline.sizeAt slot, run.sizeAt slot⟩,
        (mem_alarms_of_canonical hr).2 ⟨he, rfl⟩, rfl⟩
  · intro a ha
    obtain ⟨he, shown⟩ := (mem_alarms_of_canonical hr).1 ha
    have again := Threshold.isExceeded_mono hl hf (smaller a.slot) (larger a.slot) he
    refine ⟨⟨a.slot, baseline'.sizeAt a.slot, run'.sizeAt a.slot⟩,
      (mem_alarms_of_canonical hr').2 ⟨again, rfl⟩, rfl, ?_, ?_⟩
    · rw [shown]
      exact larger a.slot
    · rw [shown]
      exact smaller a.slot

/-- Slot 3 has a baseline of 6 at first and none later. In slot 5 the product overflows at first and
just fits later, where it is passed. -/
theorem alarms_mono_overflow :
    let baseline : Profile := ofList [⟨3, 6⟩, ⟨5, 0x8000000000000000⟩]
    let baseline' : Profile := ofList [⟨5, 0x7FFFFFFFFFFFFFFF⟩]
    let run : Profile := ofList [⟨3, 20⟩, ⟨5, 0xFFFFFFFFFFFFFFFF⟩, ⟨7, 10⟩]
    let run' : Profile := ofList [⟨3, 20⟩, ⟨5, 0xFFFFFFFFFFFFFFFF⟩, ⟨7, 11⟩, ⟨9, 1⟩]
    (¬ ∃ a ∈ run.alarms baseline ⟨10, 3⟩, a.slot = 5) ∧
    (⟨3, 6, 20⟩ ∈ run.alarms baseline ⟨10, 3⟩ ∧ ∃ a' ∈ run'.alarms baseline' ⟨0, 2⟩,
      a'.slot = 3 ∧ 20 ≤ a'.observed ∧ a'.baseline ≤ 6) ∧
    ∃ a' ∈ run'.alarms baseline' ⟨0, 2⟩, a'.slot = 5 := by
  intro baseline baseline' run run'
  have hr : run.Canonical := by decide
  have hr' : run'.Canonical := by decide
  have larger : ∀ slot, run.sizeAt slot ≤ run'.sizeAt slot := by
    simp only [sizeAt_eq_largestFor hr, sizeAt_eq_largestFor hr']
    exact Reading.forall_largestFor_le_iff.2 (by decide)
  have smaller : ∀ slot, baseline'.sizeAt slot ≤ baseline.sizeAt slot := by
    have hb : baseline.Canonical := by decide
    have hb' : baseline'.Canonical := by decide
    simp only [sizeAt_eq_largestFor hb, sizeAt_eq_largestFor hb']
    exact Reading.forall_largestFor_le_iff.2 (by decide)
  have least : (⟨0, 2⟩ : Threshold).leastSize ≤ (⟨10, 3⟩ : Threshold).leastSize := by decide
  have factor : (⟨0, 2⟩ : Threshold).growthFactor ≤ (⟨10, 3⟩ : Threshold).growthFactor := by decide
  obtain ⟨raised, again⟩ := alarms_mono hr hr' larger smaller least factor
  have listed : (⟨3, 6, 20⟩ : Alarm) ∈ run.alarms baseline ⟨10, 3⟩ := by decide +kernel
  rw [raised]
  exact ⟨by decide +kernel, ⟨listed, again _ listed⟩, by decide +kernel⟩

/-- **No miss and no false report.** After any calls, a run is alarming in a slot exactly if one of
the requests that its sites made since the last reset exceeds the threshold over what the baseline
lists for the slot. A slot raises at most one alarm, in ascending order, and its alarm shows the
largest of these requests. -/
theorem alarms_capture_run {σ : Type} (source : Source σ) (memory : Memory) (state : σ)
    (calls : List Call) {baseline : Profile} (hb : baseline.Canonical) (t : Threshold) :
    let found := (capture (Watch.run source ⟨.empty, memory, state⟩ calls).table).alarms baseline t
    (∀ slot : UInt64, baseline.sizeAt slot = Reading.largestFor baseline.toList slot) ∧
    (∀ slot : UInt64, (∃ a ∈ found, a.slot = slot) ↔
      ∃ r ∈ Call.sinceReset calls, r.1.slot.val.toUInt64 = slot ∧
        t.isExceeded (baseline.sizeAt slot) r.2 = true) ∧
    found.Pairwise (fun a b => a.slot < b.slot) ∧
    ∀ a ∈ found, a.baseline = baseline.sizeAt a.slot ∧
      ∃ site : Site, a.slot = site.slot.val.toUInt64 ∧
        (site, a.observed) ∈ Call.sinceReset calls ∧
        a.observed = Call.largestIn calls site.slot := by
  intro found
  have hfound : ∀ {a : Alarm}, a ∈ found ↔ ∃ slot : Fin slotCount,
      Call.largestIn calls slot ≠ 0 ∧
      t.isExceeded (baseline.sizeAt slot.val.toUInt64) (Call.largestIn calls slot) = true ∧
      a = ⟨slot.val.toUInt64, baseline.sizeAt slot.val.toUInt64, Call.largestIn calls slot⟩ := by
    intro a
    rw [mem_alarms, capture_run]
    constructor
    · rintro ⟨r, hr, he, rfl⟩
      obtain ⟨slot, rfl, hne⟩ := Call.mem_profile.1 hr
      exact ⟨slot, hne, he, rfl⟩
    · rintro ⟨slot, hne, he, rfl⟩
      exact ⟨_, Call.mem_profile.2 ⟨slot, rfl, hne⟩, he, rfl⟩
  refine ⟨sizeAt_eq_largestFor hb, fun slot => ⟨?_, ?_⟩,
    ascending_alarms (canonical_capture _).1 baseline t, fun a ha => ?_⟩
  · rintro ⟨a, ha, rfl⟩
    obtain ⟨slot, hne, he, rfl⟩ := hfound.1 ha
    obtain ⟨site, rfl, hm⟩ := Call.exists_largestIn hne
    exact ⟨_, hm, rfl, he⟩
  · -- the request may be smaller than the one that the table kept
    rintro ⟨r, hr, rfl, he⟩
    have largest := Threshold.isExceeded_of_le he (Call.le_largestIn hr)
    exact ⟨_, hfound.2 ⟨r.1.slot, Threshold.ne_zero_of_isExceeded largest, largest, rfl⟩, rfl⟩
  · obtain ⟨slot, hne, -, rfl⟩ := hfound.1 ha
    obtain ⟨site, rfl, hm⟩ := Call.exists_largestIn hne
    exact ⟨rfl, site, rfl, hm, rfl⟩

/-- The factor overflows against the baseline of slot 512 and not against that of slot 256. There
the second of two requests is alarming, and the larger third one is reported. In slot 768 there is no
baseline, and the zeroed request is alarming for its wrapped product. -/
theorem alarms_capture_run_overflow :
    let refusing : Source Unit := ⟨fun _ _ state => (none, state)⟩
    let baseline : Profile := ofList [⟨256, 2⟩, ⟨512, 4⟩]
    let calls : List Call := [.allocate 7 ⟨0x1000⟩, .allocate 0x8000000000000001 ⟨0x1000⟩,
      .allocateZeroed 0x8000000000000000 1 ⟨0x2000⟩, .observe ⟨0x1000⟩ 0xFFFFFFFFFFFFFFFF,
      .allocateZeroed 0x8000000000000005 2 ⟨0x3000⟩]
    let found := (capture (Watch.run refusing ⟨.empty, .filled 0, ()⟩ calls).table).alarms
      baseline ⟨9, 0x4000000000000000⟩
    baseline.Canonical ∧ (∃ a ∈ found, a.slot = 256) ∧ (¬ ∃ a ∈ found, a.slot = 512) ∧
    ∃ a ∈ found, a.slot = 768 ∧ a.baseline = 0 ∧ a.observed = 10 := by
  intro refusing baseline calls found
  have hb : baseline.Canonical := by decide
  obtain ⟨-, alarming, -, shown⟩ :=
    alarms_capture_run refusing (.filled 0) () calls hb ⟨9, 0x4000000000000000⟩
  have only : ∀ r ∈ Call.sinceReset calls, r.1.slot.val.toUInt64 = 768 → r.2 = 10 := by
    decide +kernel
  obtain ⟨a, ha, hslot⟩ := (alarming 768).2 (by decide +kernel)
  obtain ⟨hbaseline, site, hsite, hm, -⟩ := shown a ha
  rw [hslot] at hbaseline hsite
  refine ⟨hb, (alarming 256).2 (by decide +kernel), ?_, a, ha, hslot, hbaseline.trans ?_,
    only _ hm hsite.symm⟩
  · rw [alarming]
    decide +kernel
  · decide +kernel

end Profile

end HeapWatch
