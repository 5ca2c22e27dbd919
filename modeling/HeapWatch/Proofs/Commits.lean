import HeapWatch.Proofs.Canonical
import HeapWatch.History
/-!
# What commits do to a history

A commit raises each slot to the largest reading that it lists for the slot. A reading that is not
new leaves the history as it was, unless its size is 0: that one may make the history remember a
slot it has not seen. So a profile without zeros that is not interesting can be committed or not
(`History.same_commit_of_not_isInteresting`).
-/

namespace HeapWatch

namespace History

theorem isNew_iff {h : History} {r : Reading} : h.isNew r = true ↔ h.sizeAt r.slot < r.size :=
  decide_eq_true_iff

theorem isNew_eq_false_iff {h : History} {r : Reading} :
    h.isNew r = false ↔ r.size ≤ h.sizeAt r.slot := by
  rw [← UInt64.not_lt, ← isNew_iff, Bool.not_eq_true]

theorem grown_absorbAll_cons (h : History) (r : Reading) (readings : List Reading) :
    (h.absorbAll (r :: readings)).1 = ((h.absorb r).absorbAll readings).1 + (h.isNew r).toNat := by
  rw [absorbAll]
  cases h.isNew r <;> rfl

/-- The same sizes for the same slots. -/
def Same (h h' : History) : Prop := ∀ slot : UInt64, h.best[slot]? = h'.best[slot]?

namespace Same

variable {h h' h'' : History}

theorem refl (h : History) : Same h h := fun _ => rfl

theorem symm (s : Same h h') : Same h' h := fun slot => (s slot).symm

theorem trans (s : Same h h') (s' : Same h' h'') : Same h h'' :=
  fun slot => (s slot).trans (s' slot)

theorem sizeAt_eq (s : Same h h') (slot : UInt64) : h.sizeAt slot = h'.sizeAt slot := by
  rw [sizeAt, sizeAt, Std.HashMap.getD_eq_getD_getElem?, Std.HashMap.getD_eq_getD_getElem?, s slot]

theorem length_eq (s : Same h h') : h.length = h'.length :=
  (Std.HashMap.Equiv.of_forall_getElem?_eq s).size_eq

theorem of_mem (hm : ∀ slot, slot ∈ h.best ↔ slot ∈ h'.best)
    (hs : ∀ slot, h.sizeAt slot = h'.sizeAt slot) : Same h h' := by
  intro slot
  by_cases hin : slot ∈ h.best
  · rw [Std.HashMap.getElem?_eq_some_getD hin, Std.HashMap.getElem?_eq_some_getD ((hm slot).1 hin)]
    exact congrArg some (hs slot)
  · have hout : slot ∉ h'.best := fun hin' => hin ((hm slot).2 hin')
    rw [Std.HashMap.getElem?_eq_none hin, Std.HashMap.getElem?_eq_none hout]

theorem isNew_eq (s : Same h h') (r : Reading) : h.isNew r = h'.isNew r := by
  rw [isNew, isNew, s.sizeAt_eq]

theorem absorb (s : Same h h') (r : Reading) : Same (h.absorb r) (h'.absorb r) := by
  intro slot
  rw [History.absorb, History.absorb, Std.HashMap.getElem?_insert, Std.HashMap.getElem?_insert,
    s.sizeAt_eq, s slot]

theorem absorbAll (s : Same h h') (readings : List Reading) :
    (h.absorbAll readings).1 = (h'.absorbAll readings).1 ∧
      Same (h.absorbAll readings).2 (h'.absorbAll readings).2 := by
  induction readings generalizing h h' with
  | nil => exact ⟨rfl, s⟩
  | cons r readings ih =>
    obtain ⟨counted, same⟩ := ih (s.absorb r)
    exact ⟨by rw [grown_absorbAll_cons, grown_absorbAll_cons, counted, s.isNew_eq], same⟩

end Same

/-! ## Readings one by one -/

theorem sizeAt_absorbAll (h : History) (readings : List Reading) (slot : UInt64) :
    (h.absorbAll readings).2.sizeAt slot =
      max (h.sizeAt slot) (Reading.largestFor readings slot) := by
  induction readings generalizing h with
  | nil => exact (word_max_zero _).symm
  | cons r readings ih =>
    rw [absorbAll, ih, sizeAt_absorb]
    refine word_eq_of_upper_bounds fun b => ?_
    rw [Std.max_le_iff, Std.max_le_iff, Reading.largestFor_le_iff, Reading.largestFor_le_iff,
      List.forall_mem_cons]
    by_cases e : r.slot = slot
    · rw [if_pos e, Std.max_le_iff, and_assoc]
      simp only [e, true_imp_iff]
    · rw [if_neg e]
      simp only [e, false_imp_iff, true_and]

/-- **The slots that are remembered after some readings.** -/
theorem mem_absorbAll (h : History) (readings : List Reading) (slot : UInt64) :
    slot ∈ (h.absorbAll readings).2.best ↔ slot ∈ h.best ∨ ∃ r ∈ readings, r.slot = slot := by
  induction readings generalizing h with
  | nil => simp [absorbAll]
  | cons r readings ih =>
    simp only [absorbAll, ih, absorb, Std.HashMap.mem_insert, beq_iff_eq, List.mem_cons,
      or_and_right, exists_or, exists_eq_left]
    rw [or_comm (a := r.slot = slot), or_assoc]

/-- **A slot grows over some readings** exactly if one of them is new to the history. -/
theorem sizeAt_lt_absorbAll_iff (h : History) (readings : List Reading) (slot : UInt64) :
    h.sizeAt slot < (h.absorbAll readings).2.sizeAt slot ↔
      ∃ r ∈ readings, r.slot = slot ∧ h.isNew r = true := by
  rw [sizeAt_absorbAll, word_lt_max_iff, Reading.lt_largestFor_iff]
  refine exists_congr fun r => and_congr_right fun _ => and_congr_right fun e => ?_
  rw [isNew_iff, e]

theorem mem_of_sizeAt_ne_zero {h : History} {slot : UInt64} (hne : h.sizeAt slot ≠ 0) :
    slot ∈ h.best := by
  by_contra hout
  exact hne (Std.HashMap.getD_eq_fallback hout)

/-- A reading is new after another one if it was new before, and is above the other if that is of the
same slot. -/
theorem isNew_absorb_iff {h : History} {r s : Reading} :
    (h.absorb r).isNew s = true ↔ h.isNew s = true ∧ (r.slot = s.slot → r.size < s.size) := by
  rw [isNew_iff, isNew_iff, sizeAt_absorb]
  by_cases e : r.slot = s.slot
  · simp only [e, if_true, word_max_lt_iff, true_imp_iff]
  · simp only [e, if_false, false_imp_iff, and_true]

theorem isNew_absorb (h : History) {r s : Reading} (hne : r.slot ≠ s.slot) :
    (h.absorb r).isNew s = h.isNew s := by
  rw [Bool.eq_iff_iff, isNew_absorb_iff]
  simp [hne]

theorem isNew_absorb_of_not_isNew {h : History} {r : Reading} (hr : h.isNew r = false)
    (s : Reading) : (h.absorb r).isNew s = h.isNew s := by
  rw [Bool.eq_iff_iff, isNew_absorb_iff, and_iff_left_iff_imp]
  intro hs e
  rw [isNew_eq_false_iff, e] at hr
  exact UInt64.lt_of_le_of_lt hr (isNew_iff.1 hs)

/-- **Nothing is counted exactly if nothing is new** to the history as it was before, although each
reading is judged by what those before it have left. -/
theorem grown_absorbAll_eq_zero_iff (h : History) (readings : List Reading) :
    (h.absorbAll readings).1 = 0 ↔ ∀ r ∈ readings, h.isNew r = false := by
  induction readings generalizing h with
  | nil => simp [absorbAll]
  | cons r readings ih =>
    rw [grown_absorbAll_cons, Nat.add_eq_zero_iff, ih, List.forall_mem_cons]
    by_cases hr : h.isNew r
    · simp [hr]
    · rw [Bool.not_eq_true] at hr
      simp [hr, isNew_absorb_of_not_isNew hr]

/-- **The count of some readings**: the new ones, if each slot comes once. -/
theorem grown_absorbAll (h : History) {readings : List Reading}
    (ha : readings.Pairwise fun a b => a.slot < b.slot) :
    (h.absorbAll readings).1 = readings.countP h.isNew := by
  induction readings generalizing h with
  | nil => rfl
  | cons r readings ih =>
    obtain ⟨hr, ha⟩ := List.pairwise_cons.1 ha
    have rest : readings.countP (h.absorb r).isNew = readings.countP h.isNew :=
      List.countP_congr fun s hs => by rw [isNew_absorb h (UInt64.ne_of_lt (hr s hs))]
    rw [grown_absorbAll_cons, ih _ ha, rest, List.countP_cons]
    cases h.isNew r <;> rfl

theorem same_absorbAll (h : History) {readings : List Reading}
    (hn : ∀ r ∈ readings, h.isNew r = false) (hz : ∀ r ∈ readings, r.size ≠ 0) :
    Same (h.absorbAll readings).2 h := by
  have below : ∀ r ∈ readings, r.size ≤ h.sizeAt r.slot := fun r hr =>
    isNew_eq_false_iff.1 (hn r hr)
  apply Same.of_mem
  · intro slot
    rw [mem_absorbAll]
    constructor
    · rintro (hin | ⟨r, hr, rfl⟩)
      · exact hin
      · -- the slot has a size, since the reading is no larger and not 0
        refine mem_of_sizeAt_ne_zero fun none => hz r hr ?_
        exact UInt64.le_antisymm (none ▸ below r hr) UInt64.zero_le
    · exact Or.inl
  · intro slot
    rw [sizeAt_absorbAll]
    exact word_max_of_le (Reading.largestFor_le_iff.2 fun r hr e => e ▸ below r hr)

/-- **Readings can stand for others** if none of either is 0 and both list the same for each slot:
the history is the same after them, whatever it was before. -/
theorem same_absorbAll_of_largestFor (h : History) {first second : List Reading}
    (hf : ∀ r ∈ first, r.size ≠ 0) (hs : ∀ r ∈ second, r.size ≠ 0)
    (same : ∀ slot, Reading.largestFor first slot = Reading.largestFor second slot) :
    Same (h.absorbAll first).2 (h.absorbAll second).2 := by
  apply Same.of_mem
  · intro slot
    rw [mem_absorbAll, mem_absorbAll, Reading.exists_slot_iff hf, Reading.exists_slot_iff hs, same]
  · intro slot
    rw [sizeAt_absorbAll, sizeAt_absorbAll, same]

/-! ## Profiles -/

theorem sizeAt_commit (h : History) (p : Profile) (slot : UInt64) :
    (h.commit p).2.sizeAt slot = max (h.sizeAt slot) (Reading.largestFor p.toList slot) :=
  sizeAt_absorbAll h p.toList slot

/-- **A profile that is not interesting can be committed or not**: it changes nothing. -/
theorem same_commit_of_not_isInteresting (h : History) {p : Profile}
    (hz : ∀ r ∈ p.toList, r.size ≠ 0) (hi : h.isInteresting p = false) :
    Same (h.commit p).2 h := by
  rw [isInteresting, List.any_eq_false] at hi
  exact same_absorbAll h (fun r hr => Bool.eq_false_iff.2 (hi r hr)) hz

theorem grown_commit (h : History) {p : Profile} (hc : p.Canonical) :
    (h.commit p).1 = p.toList.countP h.isNew := grown_absorbAll h hc.1

/-- **A commit counts nothing exactly if its profile is not interesting**, whatever that lists. -/
theorem grown_commit_eq_zero_iff (h : History) (p : Profile) :
    (h.commit p).1 = 0 ↔ h.isInteresting p = false := by
  rw [commit, grown_absorbAll_eq_zero_iff, isInteresting, List.any_eq_false]
  simp only [Bool.not_eq_true]

theorem isInteresting_iff_grown (h : History) (p : Profile) :
    h.isInteresting p = true ↔ 0 < (h.commit p).1 := by
  rw [Nat.pos_iff_ne_zero, ne_eq, grown_commit_eq_zero_iff, Bool.not_eq_false]

end History

end HeapWatch
