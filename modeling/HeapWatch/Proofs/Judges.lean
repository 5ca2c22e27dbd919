import HeapWatch.Proofs.Alarms
import HeapWatch.Proofs.Histories
/-!
# The two judges of growth

A run is judged in two ways. Over a baseline it raises alarms: sizes are found by bisection and
tested against a threshold. Over a history it brings news: sizes are found by hashing and simply
compared. If the history knows the baseline and nothing else, alarms are news, and under a threshold
that asks for no more than growth all news are alarms.
-/

namespace HeapWatch

/-! ## Alarms and news -/

/-- The reading of the run that an alarm shows. -/
def Alarm.reading (a : Alarm) : Reading := ⟨a.slot, a.observed⟩

/-- A threshold without a least size and with a factor of 1 or 0 asks for growth and nothing else. -/
theorem Threshold.isExceeded_iff_lt {t : Threshold} (hl : t.leastSize = 0)
    (hf : t.growthFactor ≤ 1) {baseline observed : UInt64} :
    t.isExceeded baseline observed = true ↔ baseline < observed := by
  rw [isExceeded_iff, hl]
  constructor
  · rintro ⟨-, above, -⟩
    exact above
  · intro above
    have times : baseline.toNat * t.growthFactor.toNat ≤ baseline.toNat * 1 :=
      Nat.mul_le_mul_left _ (UInt64.le_iff_toNat_le.1 hf)
    rw [Nat.mul_one] at times
    exact ⟨UInt64.zero_le, above, Or.inr (Nat.lt_of_le_of_lt times (UInt64.lt_iff_toNat_lt.1 above))⟩

namespace Profile

/-- **The readings that raise alarms**, in the order of the run. -/
theorem map_reading_alarms (run baseline : Profile) (t : Threshold) :
    (run.alarms baseline t).map Alarm.reading =
      run.toList.filter fun r => t.isExceeded (baseline.sizeAt r.slot) r.size := by
  rw [alarms_eq, List.map_map]
  exact List.map_id _

/-- **The two judges agree.** Let a history have seen, since it was made or last cleared, the
readings of a canonical baseline and no others. Then every alarm that a run raises over the baseline
is news to the history, which has the alarm's baseline for its slot, so that a run with an alarm is
interesting; and if the threshold asks for growth alone, the run's news are its alarms, in the same
order. The run may list anything. -/
theorem alarms_agree_with_news {baseline : Profile} (hb : baseline.Canonical)
    {steps : List History.Step} (hs : History.Step.committed steps = baseline.toList)
    (run : Profile) (t : Threshold) :
    let h := History.empty.run steps
    let found := run.alarms baseline t
    (t.leastSize = 0 → t.growthFactor ≤ 1 → found.map Alarm.reading = h.news run) ∧
    (∀ a ∈ found, a.baseline = h.sizeAt a.slot) ∧
    (found.map Alarm.reading).Sublist (h.news run) ∧
    (found ≠ [] → h.isInteresting run = true) := by
  intro h found
  have sizeAt (slot : UInt64) : h.sizeAt slot = baseline.sizeAt slot := by
    rw [sizeAt_eq_largestFor hb, ← hs]
    exact History.sizeAt_run steps slot
  have news : h.news run = run.toList.filter fun r => baseline.sizeAt r.slot < r.size := by
    unfold History.news History.isNew
    simp only [sizeAt]
  have sublist : (found.map Alarm.reading).Sublist (h.news run) := by
    have among : run.toList.filter (fun r => t.isExceeded (baseline.sizeAt r.slot) r.size) =
        (h.news run).filter fun r => t.isExceeded (baseline.sizeAt r.slot) r.size := by
      rw [news, List.filter_filter]
      refine List.filter_congr fun r _ => ?_
      by_cases he : t.isExceeded (baseline.sizeAt r.slot) r.size
      · simp [he, (Threshold.isExceeded_iff.1 he).2.1]
      · simp [he]
    rw [map_reading_alarms, among]
    exact List.filter_sublist
  refine ⟨?_, ?_, sublist, ?_⟩
  · intro hl hf
    rw [map_reading_alarms, news]
    refine List.filter_congr fun r _ => ?_
    rw [Bool.eq_iff_iff, Threshold.isExceeded_iff_lt hl hf, decide_eq_true_eq]
  · intro a ha
    obtain ⟨r, -, -, rfl⟩ := mem_alarms.1 ha
    exact (sizeAt r.slot).symm
  · intro hne
    rw [History.isInteresting_eq, Bool.not_eq_true', List.isEmpty_eq_false_iff]
    intro nothing
    rw [nothing, List.sublist_nil, List.map_eq_nil_iff] at sublist
    exact hne sublist

/-- A history that was cleared before the baseline was committed, and a run out of order that lists
a slot three times and a size of 0. Its news are its alarms if growth alone is asked for. -/
theorem alarms_agree_with_news_unsorted :
    let baseline : Profile := ofList [⟨3, 5⟩, ⟨9, 0x8000000000000000⟩]
    let steps : List History.Step :=
      [.commit (ofList [⟨3, 99⟩, ⟨5, 1⟩]), .clear, .commit baseline]
    let run : Profile := ofList [⟨9, 0xFFFFFFFFFFFFFFFF⟩, ⟨3, 6⟩, ⟨4, 0⟩, ⟨3, 5⟩, ⟨3, 6⟩, ⟨5, 1⟩]
    baseline.Canonical ∧ History.Step.committed steps = baseline.toList ∧
    (History.empty.run steps).news run =
      [⟨9, 0xFFFFFFFFFFFFFFFF⟩, ⟨3, 6⟩, ⟨3, 6⟩, ⟨5, 1⟩] ∧
    (History.empty.run steps).isInteresting run = true := by
  intro baseline steps run
  have hb : baseline.Canonical := by decide
  have hs : History.Step.committed steps = baseline.toList := by decide
  obtain ⟨same, -, -, interesting⟩ := alarms_agree_with_news hb hs run ⟨0, 1⟩
  refine ⟨hb, hs, ?_, interesting (by decide +kernel)⟩
  rw [← same rfl (by decide)]
  decide +kernel

end Profile

end HeapWatch
