import HeapWatch.Proofs.Canonical
/-!
# The largest reading

Of the readings of largest size the last one stands. In a profile that lists anything this depends on
the order; a canonical one ascends by slot, so there it is the reading of the highest slot. Which one
that is can be said without the profile, of the readings that it was made of or of the requests that
its table has recorded.
-/

namespace HeapWatch

namespace Reading

/-- The larger of a reading so far, if there is one, and the next. The next one stands if they are of
one size. -/
def larger (best : Option Reading) (r : Reading) : Option Reading :=
  match best with
  | some b => if b.size ≤ r.size then some r else some b
  | none => some r

/-- **The last among the readings of largest size.** -/
def IsLastLargest (readings : List Reading) (r : Reading) : Prop :=
  ∃ before after, readings = before ++ r :: after ∧ (∀ q ∈ before, q.size ≤ r.size) ∧
    ∀ q ∈ after, q.size < r.size

theorem IsLastLargest.mem {readings : List Reading} {r : Reading} (h : IsLastLargest readings r) :
    r ∈ readings := by
  obtain ⟨before, after, rfl, -⟩ := h
  exact List.mem_append_right _ List.mem_cons_self

theorem IsLastLargest.le {readings : List Reading} {r q : Reading} (h : IsLastLargest readings r)
    (hq : q ∈ readings) : q.size ≤ r.size := by
  obtain ⟨before, after, rfl, hb, ha⟩ := h
  rcases List.mem_append.1 hq with hq | hq
  · exact hb q hq
  · rcases List.mem_cons.1 hq with rfl | hq
    · exact UInt64.le_refl _
    · exact UInt64.le_of_lt (ha q hq)

/-- One more reading at the end is the last of the largest itself, or it is smaller. -/
theorem isLastLargest_concat_iff {readings : List Reading} {next r : Reading} :
    IsLastLargest (readings ++ [next]) r ↔
      (r = next ∧ ∀ q ∈ readings, q.size ≤ next.size) ∨
        (IsLastLargest readings r ∧ next.size < r.size) := by
  constructor
  · rintro ⟨before, after, e, hb, ha⟩
    rcases List.eq_nil_or_concat after with rfl | ⟨after, last, rfl⟩
    · obtain ⟨rfl, same⟩ := List.append_inj' e rfl
      obtain rfl := List.singleton_inj.1 same
      exact Or.inl ⟨rfl, hb⟩
    · rw [List.concat_eq_append] at e ha
      rw [← List.cons_append, ← List.append_assoc] at e
      obtain ⟨rfl, same⟩ := List.append_inj' e rfl
      obtain rfl := List.singleton_inj.1 same
      exact Or.inr ⟨⟨before, after, rfl, hb, fun q hq => ha q (List.mem_append_left _ hq)⟩,
        ha next (List.mem_append_right _ List.mem_cons_self)⟩
  · rintro (⟨rfl, hb⟩ | ⟨⟨before, after, rfl, hb, ha⟩, hlt⟩)
    · exact ⟨readings, [], rfl, hb, fun q hq => absurd hq List.not_mem_nil⟩
    · refine ⟨before, after ++ [next], by simp, hb, fun q hq => ?_⟩
      rcases List.mem_append.1 hq with hq | hq
      · exact ha q hq
      · rw [List.mem_singleton.1 hq]
        exact hlt

theorem foldl_larger_eq_none_iff {readings : List Reading} :
    readings.foldl larger none = none ↔ readings = [] := by
  constructor
  · intro h
    rcases List.eq_nil_or_concat readings with rfl | ⟨readings, last, rfl⟩
    · rfl
    · rw [List.concat_eq_append, List.foldl_append, List.foldl_cons, List.foldl_nil] at h
      unfold larger at h
      split at h
      · split at h <;> cases h
      · cases h
  · rintro rfl
    rfl

/-- **What is kept of a list of readings** is the last among the largest. -/
theorem foldl_larger_eq_some_iff {readings : List Reading} {r : Reading} :
    readings.foldl larger none = some r ↔ IsLastLargest readings r := by
  induction readings using List.reverseRecOn generalizing r with
  | nil =>
    constructor
    · intro h
      cases h
    · intro h
      exact absurd h.mem List.not_mem_nil
  | append_singleton readings next ih =>
    rw [List.foldl_append, List.foldl_cons, List.foldl_nil, isLastLargest_concat_iff]
    cases hbest : readings.foldl larger none with
    | none =>
      obtain rfl := foldl_larger_eq_none_iff.1 hbest
      constructor
      · rintro ⟨⟩
        exact Or.inl ⟨rfl, fun q hq => absurd hq List.not_mem_nil⟩
      · rintro (⟨rfl, -⟩ | ⟨hr, -⟩)
        · rfl
        · exact absurd hr.mem List.not_mem_nil
    | some best =>
      have hlast := ih.1 hbest
      by_cases hle : best.size ≤ next.size
      · rw [larger, if_pos hle]
        constructor
        · rintro ⟨⟩
          exact Or.inl ⟨rfl, fun q hq => UInt64.le_trans (hlast.le hq) hle⟩
        · rintro (⟨rfl, -⟩ | ⟨hr, hlt⟩)
          · rfl
          · obtain rfl : best = r := Option.some.inj (hbest.symm.trans (ih.2 hr))
            exact absurd hle (UInt64.not_le.2 hlt)
      · rw [larger, if_neg hle]
        constructor
        · rintro ⟨⟩
          exact Or.inr ⟨hlast, UInt64.not_le.1 hle⟩
        · rintro (⟨rfl, hb⟩ | ⟨hr, -⟩)
          · exact absurd (hb best hlast.mem) hle
          · exact hbest.symm.trans (ih.2 hr)

theorem isLastLargest_iff_of_ascending {readings : List Reading}
    (ha : readings.Pairwise fun a b => a.slot < b.slot) {r : Reading} :
    IsLastLargest readings r ↔ r ∈ readings ∧ (∀ q ∈ readings, q.size ≤ r.size) ∧
      ∀ q ∈ readings, q.size = r.size → q.slot ≤ r.slot := by
  constructor
  · intro h
    refine ⟨h.mem, fun q hq => h.le hq, ?_⟩
    obtain ⟨before, after, rfl, -, hlt⟩ := h
    intro q hq e
    rcases List.mem_append.1 hq with hq | hq
    · exact UInt64.le_of_lt ((List.pairwise_append.1 ha).2.2 q hq r List.mem_cons_self)
    · rcases List.mem_cons.1 hq with rfl | hq
      · exact UInt64.le_refl _
      · exact absurd (e ▸ hlt q hq) (UInt64.lt_irrefl _)
  · rintro ⟨hr, largest, highest⟩
    obtain ⟨before, after, rfl⟩ := List.append_of_mem hr
    refine ⟨before, after, rfl, fun q hq => largest q (List.mem_append_left _ hq), fun q hq => ?_⟩
    have mem : q ∈ before ++ r :: after := List.mem_append_right _ (List.mem_cons_of_mem _ hq)
    -- a reading of the same size would be of a higher slot
    have higher := (List.pairwise_cons.1 (List.pairwise_append.1 ha).2.1).1 q hq
    refine UInt64.lt_of_le_of_ne (largest q mem) fun e => ?_
    exact UInt64.not_le.2 higher (highest q mem e)

end Reading

namespace Profile

/-- **The largest reading of any profile** is the last among those of largest size. -/
theorem largest?_eq_some_iff {p : Profile} {r : Reading} :
    p.largest? = some r ↔ Reading.IsLastLargest p.toList r := Reading.foldl_larger_eq_some_iff

theorem largest?_eq_none_iff {p : Profile} : p.largest? = none ↔ p.toList = [] :=
  Reading.foldl_larger_eq_none_iff

/-! ## Profiles of readings -/

theorem mk_mem_ofReadings {readings : List Reading} {slot : UInt64}
    (h : Reading.largestFor readings slot ≠ 0) :
    ⟨slot, Reading.largestFor readings slot⟩ ∈ (ofReadings readings).toList :=
  (mem_toList_of_canonical (canonical_ofReadings readings)).2 ⟨h, largestFor_ofReadings _ _⟩

theorem ofReadings_eq_nil_iff {readings : List Reading} :
    (ofReadings readings).toList = [] ↔ ∀ r ∈ readings, r.size = 0 := by
  constructor
  · intro h r hr
    by_contra hne
    have above : Reading.largestFor readings r.slot ≠ 0 := by
      intro zero
      have le := Reading.largestFor_le_iff.1 (UInt64.le_of_eq zero) r hr rfl
      exact hne (UInt64.le_antisymm le UInt64.zero_le)
    have mem := mk_mem_ofReadings above
    rw [h] at mem
    exact List.not_mem_nil mem
  · intro h
    refine List.eq_nil_iff_forall_not_mem.2 fun r hr => ?_
    obtain ⟨listed, hne⟩ := mem_of_mem_ofReadings hr
    exact hne (h r listed)

/-- **The largest reading of what is listed**, in whatever order: of the readings of largest size it is
the one of the highest slot. -/
theorem largest?_ofReadings_eq_some_iff {readings : List Reading} {r : Reading} :
    (ofReadings readings).largest? = some r ↔ r ∈ readings ∧ r.size ≠ 0 ∧
      (∀ q ∈ readings, q.size ≤ r.size) ∧ ∀ q ∈ readings, q.size = r.size → q.slot ≤ r.slot := by
  have hc := canonical_ofReadings readings
  rw [largest?_eq_some_iff, Reading.isLastLargest_iff_of_ascending hc.1]
  constructor
  · rintro ⟨hr, largest, highest⟩
    obtain ⟨listed, hne⟩ := mem_of_mem_ofReadings hr
    have bounded : ∀ slot, Reading.largestFor readings slot ≤ r.size := by
      intro slot
      by_cases hz : Reading.largestFor readings slot = 0
      · exact hz ▸ UInt64.zero_le
      · exact largest _ (mk_mem_ofReadings hz)
    have below : ∀ q ∈ readings, q.size ≤ Reading.largestFor readings q.slot := fun q hq =>
      Reading.largestFor_le_iff.1 (UInt64.le_refl _) q hq rfl
    refine ⟨listed, hne, fun q hq => UInt64.le_trans (below q hq) (bounded q.slot), ?_⟩
    intro q hq e
    have same : Reading.largestFor readings q.slot = r.size :=
      UInt64.le_antisymm (bounded q.slot) (e ▸ below q hq)
    have above := highest _ (mk_mem_ofReadings (same ▸ hne)) same
    exact above
  · rintro ⟨listed, hne, largest, highest⟩
    have largestFor : Reading.largestFor readings r.slot = r.size :=
      UInt64.le_antisymm (Reading.largestFor_le_iff.2 fun q hq _ => largest q hq)
        (Reading.largestFor_le_iff.1 (UInt64.le_refl _) r listed rfl)
    refine ⟨?_, fun q hq => largest q (mem_of_mem_ofReadings hq).1,
      fun q hq => highest q (mem_of_mem_ofReadings hq).1⟩
    rw [mem_toList_of_canonical hc, largestFor_ofReadings]
    exact ⟨hne, largestFor⟩

/-! ## Captured runs -/

/-- **The largest reading of a table** is what the highest of the slots with the largest size holds. -/
theorem largest?_capture_eq_some_iff {t : SizeTable} {r : Reading} :
    (capture t).largest? = some r ↔ r.size ≠ 0 ∧ (∀ slot, t.sizeAt slot ≤ r.size) ∧
      ∃ slot : Fin slotCount, r = ⟨slot.val.toUInt64, t.sizeAt slot⟩ ∧
        ∀ other, t.sizeAt other = t.sizeAt slot → other ≤ slot := by
  have order {slot other : Fin slotCount} :
      other.val.toUInt64 ≤ slot.val.toUInt64 ↔ other ≤ slot := by
    rw [← UInt64.not_lt, slot_lt_iff, Fin.not_lt]
  rw [capture_eq_ofReadings, largest?_ofReadings_eq_some_iff]
  simp only [SizeTable.mem_readings]
  constructor
  · rintro ⟨⟨slot, rfl⟩, hne, largest, highest⟩
    exact ⟨hne, fun other => largest _ ⟨other, rfl⟩, slot, rfl, fun other e =>
      order.1 (highest _ ⟨other, rfl⟩ e)⟩
  · rintro ⟨hne, largest, slot, rfl, highest⟩
    refine ⟨⟨slot, rfl⟩, hne, ?_, ?_⟩
    · rintro q ⟨other, rfl⟩
      exact largest other
    · rintro q ⟨other, rfl⟩ e
      exact order.2 (highest other e)

theorem largest?_capture_eq_none_iff {t : SizeTable} :
    (capture t).largest? = none ↔ ∀ slot, t.sizeAt slot = 0 := by
  rw [largest?_eq_none_iff, capture_eq_ofReadings, ofReadings_eq_nil_iff]
  simp [SizeTable.mem_readings]

end Profile

namespace Call

theorem forall_largestIn_le_iff {calls : List Call} {b : UInt64} :
    (∀ slot, largestIn calls slot ≤ b) ↔ ∀ q ∈ sinceReset calls, q.2 ≤ b := by
  simp only [largestIn_le_iff]
  constructor
  · intro h q hq
    exact h q.1.slot q hq rfl
  · intro h slot q hq _
    exact h q hq

end Call

namespace Profile

section Run

variable {σ : Type} (source : Source σ) (memory : Memory) (state : σ) (calls : List Call)

/-- **The largest request of all sites** is found although sites share their slots. -/
theorem largest?_capture_run_eq_some_iff {r : Reading} :
    let t := (Watch.run source ⟨.empty, memory, state⟩ calls).table
    (capture t).largest? = some r ↔ r.size ≠ 0 ∧
      (∃ site, (site, r.size) ∈ Call.sinceReset calls) ∧
      (∀ q ∈ Call.sinceReset calls, q.2 ≤ r.size) ∧
      ∃ slot : Fin slotCount, r.slot = slot.val.toUInt64 ∧ t.sizeAt slot = r.size ∧
        ∀ other, t.sizeAt other = r.size → other ≤ slot := by
  intro t
  have held : ∀ slot, t.sizeAt slot = Call.largestIn calls slot :=
    Watch.sizeAt_run source memory state calls
  rw [largest?_capture_eq_some_iff]
  simp only [held, Call.forall_largestIn_le_iff]
  constructor
  · rintro ⟨hne, largest, slot, rfl, highest⟩
    obtain ⟨site, -, asked⟩ := Call.exists_largestIn hne
    exact ⟨hne, ⟨site, asked⟩, largest, slot, rfl, rfl, highest⟩
  · rintro ⟨hne, -, largest, slot, hslot, hsize, highest⟩
    obtain ⟨number, size⟩ := r
    obtain rfl : number = _ := hslot
    obtain rfl : _ = size := hsize
    exact ⟨hne, largest, slot, rfl, highest⟩

theorem largest?_capture_run_eq_none_iff :
    (capture (Watch.run source ⟨.empty, memory, state⟩ calls).table).largest? = none ↔
      ∀ q ∈ Call.sinceReset calls, q.2 = 0 := by
  have zero {a : UInt64} : a = 0 ↔ a ≤ 0 :=
    ⟨UInt64.le_of_eq, fun h => UInt64.le_antisymm h UInt64.zero_le⟩
  simp only [largest?_capture_eq_none_iff, Watch.sizeAt_run, zero, Call.forall_largestIn_le_iff]

end Run

/-- **The largest reading tells the largest request**, although sites share slots: there is none
exactly if every recorded size was 0; otherwise it shows the largest size that any site has asked for,
and the highest of the slots that hold it. Of the profile of any readings it shows the largest size
that they list and the highest slot that they list it for, in whatever order they come. Of a profile
that lists anything it is the last among the readings of largest size. -/
theorem largest?_tells_largest {σ : Type} (source : Source σ) (memory : Memory) (state : σ)
    (calls : List Call) :
    let t := (Watch.run source ⟨.empty, memory, state⟩ calls).table
    ((capture t).largest? = none ↔ ∀ q ∈ Call.sinceReset calls, q.2 = 0) ∧
    (∀ r, (capture t).largest? = some r ↔ r.size ≠ 0 ∧
      (∃ site, (site, r.size) ∈ Call.sinceReset calls) ∧
      (∀ q ∈ Call.sinceReset calls, q.2 ≤ r.size) ∧
      ∃ slot : Fin slotCount, r.slot = slot.val.toUInt64 ∧ t.sizeAt slot = r.size ∧
        ∀ other, t.sizeAt other = r.size → other ≤ slot) ∧
    (∀ readings : List Reading,
      ((ofReadings readings).largest? = none ↔ ∀ q ∈ readings, q.size = 0) ∧
      (∀ r, (ofReadings readings).largest? = some r ↔ r ∈ readings ∧ r.size ≠ 0 ∧
        (∀ q ∈ readings, q.size ≤ r.size) ∧ ∀ q ∈ readings, q.size = r.size → q.slot ≤ r.slot) ∧
      ∀ shuffled, shuffled.Perm readings →
        (ofReadings shuffled).largest? = (ofReadings readings).largest?) ∧
    ∀ p : Profile, (p.largest? = none ↔ p.toList = []) ∧
      ∀ r, p.largest? = some r ↔ ∃ before after, p.toList = before ++ r :: after ∧
        (∀ q ∈ before, q.size ≤ r.size) ∧ ∀ q ∈ after, q.size < r.size := by
  intro t
  refine ⟨largest?_capture_run_eq_none_iff source memory state calls,
    fun r => largest?_capture_run_eq_some_iff source memory state calls,
    fun readings => ⟨?_, fun r => largest?_ofReadings_eq_some_iff, ?_⟩,
    fun p => ⟨largest?_eq_none_iff, fun r => largest?_eq_some_iff⟩⟩
  · rw [largest?_eq_none_iff, ofReadings_eq_nil_iff]
  · intro shuffled hp
    rw [ofReadings_eq_iff.2 fun slot => Reading.largestFor_congr (fun _ => hp.mem_iff) slot]

/-- Two sites of slot 256 and one of slot 512 have asked for 7, 9 and three times 3 bytes, after a
larger request that was reset. Of the two slots that hold 9 the higher one is told, as it is of the
readings in either order. A profile that is not in order tells the last one. -/
theorem largest?_tells_largest_tied :
    let refusing : Source Unit := ⟨fun _ _ state => (none, state)⟩
    let calls : List Call := [.observe ⟨0x7000⟩ 900, .reset, .allocateZeroed 3 3 ⟨0x2000⟩,
      .allocate 7 ⟨0x1000⟩, .allocate 9 ⟨0x41000⟩]
    let readings : List Reading := [⟨512, 9⟩, ⟨256, 9⟩, ⟨512, 4⟩, ⟨600, 0⟩]
    (capture (Watch.run refusing ⟨.empty, .filled 0, ()⟩ calls).table).largest? = some ⟨512, 9⟩ ∧
    (ofReadings readings).largest? = some ⟨512, 9⟩ ∧
    (ofReadings readings.reverse).largest? = some ⟨512, 9⟩ ∧
    (ofList readings).largest? = some ⟨256, 9⟩ := by
  intro refusing calls readings
  obtain ⟨-, captured, listed, unordered⟩ :=
    largest?_tells_largest refusing (.filled 0) () calls
  obtain ⟨-, largest, shuffles⟩ := listed readings
  have first : (ofReadings readings).largest? = some ⟨512, 9⟩ := (largest _).2 (by decide)
  refine ⟨(captured _).2 ⟨by decide, ⟨⟨0x2000⟩, by decide⟩, by decide, ⟨512, by decide⟩, rfl, ?_, ?_⟩,
    first, (shuffles _ (List.reverse_perm readings)).trans first, ?_⟩
  · rw [Watch.sizeAt_run]
    decide
  · intro other hother
    rw [Watch.sizeAt_run] at hother
    have asked : Call.largestIn calls other ≠ 0 := by
      rw [hother]
      decide
    obtain ⟨site, rfl, asked⟩ := Call.exists_largestIn asked
    have slots : ∀ q ∈ Call.sinceReset calls, q.1.slot ≤ ⟨512, by decide⟩ := by decide
    exact slots (site, _) asked
  · have listed : (ofList readings).toList = [⟨512, 9⟩] ++ ⟨256, 9⟩ :: [⟨512, 4⟩, ⟨600, 0⟩] :=
      toList_ofList readings
    have last := (unordered (ofList readings)).2 ⟨256, 9⟩
    exact last.2 ⟨_, _, listed, by decide, by decide⟩

end Profile

end HeapWatch
