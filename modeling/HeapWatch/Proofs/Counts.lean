import Mathlib.Algebra.BigOperators.Fin
import Mathlib.Data.Set.Card
import HeapWatch.Inspection
import HeapWatch.Proofs.Codecs
import HeapWatch.Proofs.Histories
/-!
# What a history counts

Two numbers are meant to count slots: a commit is meant to count those that have grown, and the
length of a history those that have a size. What they do count is readings that raise their slot, and
slots that are named at all. It is the same for the profiles that the library makes. But a profile
that was read from a text stands as it was written: it may raise one slot several times
(`History.commit_counts_slot_twice`), and it may name a slot with size 0
(`History.length_counts_slot_without_size`).
-/

namespace HeapWatch

namespace History

/-! ## The readings that a commit counts -/

/-- A reading raises its slot if it is above what the history has for the slot, and above all the
readings of the slot that come before it. -/
def Raises (h : History) (readings : List Reading) (i : Fin readings.length) : Prop :=
  h.isNew readings[i] = true ∧
    ∀ r ∈ readings.take i, r.slot = readings[i].slot → r.size < readings[i].size

instance (h : History) (readings : List Reading) : DecidablePred (h.Raises readings) := fun _ =>
  inferInstanceAs (Decidable (_ ∧ _))

theorem raises_zero_iff {h : History} {r : Reading} {readings : List Reading} :
    h.Raises (r :: readings) (0 : Fin (readings.length + 1)) ↔ h.isNew r = true := by
  simp [Raises]

theorem raises_succ_iff {h : History} {r : Reading} {readings : List Reading}
    {i : Fin readings.length} :
    h.Raises (r :: readings) i.succ ↔ (h.absorb r).Raises readings i := by
  simp only [Raises, Fin.getElem_fin, Fin.val_succ, List.getElem_cons_succ, List.take_succ_cons,
    List.forall_mem_cons, isNew_absorb_iff, and_assoc]

/-- **The count of some readings** is how many of them raise their slots. -/
theorem grown_absorbAll_eq_card (h : History) (readings : List Reading) :
    (h.absorbAll readings).1 = (Finset.univ.filter (h.Raises readings)).card := by
  rw [Finset.card_filter]
  induction readings generalizing h with
  | nil => rfl
  | cons r readings ih =>
    have split : (∑ i, if h.Raises (r :: readings) i then 1 else 0) =
        (if h.isNew r then 1 else 0) + ∑ i, if (h.absorb r).Raises readings i then 1 else 0 := by
      refine (Fin.sum_univ_succ _).trans ?_
      simp only [raises_zero_iff, raises_succ_iff]
    rw [grown_absorbAll_cons, ih, split, Nat.add_comm]
    cases h.isNew r <;> rfl

/-- Of the new readings of a slot, the first raises it. -/
theorem exists_raises_iff (h : History) (readings : List Reading) (slot : UInt64) :
    (∃ i, h.Raises readings i ∧ readings[i].slot = slot) ↔
      ∃ r ∈ readings, r.slot = slot ∧ h.isNew r = true := by
  constructor
  · rintro ⟨i, hi, e⟩
    exact ⟨readings[i], List.getElem_mem i.isLt, e, hi.1⟩
  · rintro ⟨r, hr, e, hnew⟩
    induction readings generalizing h with
    | nil => cases hr
    | cons first readings ih =>
      by_cases hfirst : first.slot = slot ∧ h.isNew first = true
      · exact ⟨(0 : Fin (readings.length + 1)), raises_zero_iff.2 hfirst.2, hfirst.1⟩
      · -- the first one is of another slot or not new, and `r` is as new behind it
        have behind : r ∈ readings := by
          refine (List.mem_cons.1 hr).resolve_left ?_
          rintro rfl
          exact hfirst ⟨e, hnew⟩
        have kept : (h.absorb first).isNew r = true := by
          by_cases same : first.slot = slot
          · have old : h.isNew first = false :=
              Bool.eq_false_iff.2 fun hn => hfirst ⟨same, hn⟩
            rw [isNew_absorb_of_not_isNew old, hnew]
          · rw [isNew_absorb h (e.symm ▸ same), hnew]
        obtain ⟨i, hi, hslot⟩ := ih (h.absorb first) behind kept
        exact ⟨i.succ, raises_succ_iff.2 hi, hslot⟩

/-! ## The slots that grow -/

/-- The slots that have a larger size in a later history. -/
def grownSlots (before after : History) : Set UInt64 :=
  {slot | before.sizeAt slot < after.sizeAt slot}

theorem mem_grownSlots {before after : History} {slot : UInt64} :
    slot ∈ grownSlots before after ↔ before.sizeAt slot < after.sizeAt slot := Iff.rfl

theorem grownSlots_commit (h : History) (p : Profile) :
    grownSlots h (h.commit p).2 =
      ((Finset.univ.filter (h.Raises p.toList)).image fun i => p.toList[i].slot : Finset UInt64) := by
  ext slot
  rw [mem_grownSlots, commit, sizeAt_lt_absorbAll_iff, ← exists_raises_iff]
  simp

/-- **A commit counts the readings that raise their slots**, and says so in its record. They are the
readings of the slots that grow, so that no fewer are counted than slots grow, and as many exactly if
no slot is raised twice. If a profile lists no slot twice, the slots are counted. -/
theorem commit_counts_raising_readings (h : History) (p : Profile) :
    let grown := (h.commit p).1
    let slots := grownSlots h (h.commit p).2
    grown = (Finset.univ.filter (h.Raises p.toList)).card ∧
    (∀ note ∈ (Inspection.commit h p).records, note = .grew grown) ∧
    (∀ slot, slot ∈ slots ↔ ∃ i, h.Raises p.toList i ∧ p.toList[i].slot = slot) ∧
    slots.ncard ≤ grown ∧
    (slots.ncard = grown ↔ ∀ i j, h.Raises p.toList i → h.Raises p.toList j →
      p.toList[i].slot = p.toList[j].slot → i = j) ∧
    ((p.toList.map Reading.slot).Nodup → slots.ncard = grown) := by
  intro grown slots
  have counted : grown = (Finset.univ.filter (h.Raises p.toList)).card :=
    h.grown_absorbAll_eq_card p.toList
  have grow : slots = ((Finset.univ.filter (h.Raises p.toList)).image fun i => p.toList[i].slot :
      Finset UInt64) := grownSlots_commit h p
  have once : slots.ncard = grown ↔ ∀ i j, h.Raises p.toList i → h.Raises p.toList j →
      p.toList[i].slot = p.toList[j].slot → i = j := by
    rw [counted, grow, Set.ncard_coe_finset, Finset.card_image_iff]
    constructor
    · intro inj i j hi hj
      exact inj (by simpa using hi) (by simpa using hj)
    · intro inj i hi j hj
      exact inj i j (by simpa using hi) (by simpa using hj)
  refine ⟨counted, ?_, ?_, ?_, once, ?_⟩
  · intro note hnote
    rw [Inspection.records_commit] at hnote
    split at hnote
    · cases hnote
    · exact List.mem_singleton.1 hnote
  · intro slot
    rw [grow]
    simp
  · rw [counted, grow, Set.ncard_coe_finset]
    exact Finset.card_image_le
  · intro distinct
    refine once.2 fun i j _ _ e => Fin.ext ?_
    have same : p.toList[i.val] = p.toList[j.val] :=
      List.inj_on_of_nodup_map distinct (List.getElem_mem i.isLt) (List.getElem_mem j.isLt) e
    exact (List.Nodup.of_map _ distinct).getElem_inj_iff.1 same

/-- Slot 9 is known with a smaller size and slot 1 with the same. The profile is out of order and has
a size of 0, but lists no slot twice, so that the slots 9 and 2 are what is counted. -/
theorem commit_counts_raising_readings_unsorted :
    let h := (empty.commit ⟨#[⟨1, 5⟩, ⟨9, 4⟩]⟩).2
    let p : Profile := ⟨#[⟨9, 7⟩, ⟨3, 0⟩, ⟨2, 6⟩, ⟨1, 5⟩]⟩
    (p.toList.map Reading.slot).Nodup ∧ (grownSlots h (h.commit p).2).ncard = (h.commit p).1 ∧
    (h.commit p).1 = 2 := by
  intro h p
  have distinct : (p.toList.map Reading.slot).Nodup := by decide
  obtain ⟨-, -, -, -, -, counts⟩ := commit_counts_raising_readings h p
  refine ⟨distinct, counts distinct, ?_⟩
  simp only [h, p, commit, Profile.toList, absorbAll, isNew, sizeAt_absorb, sizeAt_empty]
  decide

/-- A profile that lists slot 7 twice, the second time with more. Its text is read as it stands, and
its commit counts two where one slot grows. -/
theorem commit_counts_slot_twice :
    let p : Profile := ⟨#[⟨7, 5⟩, ⟨7, 9⟩]⟩
    let h := (empty.commit p).2
    Profile.reader.decode p.json = .ok p ∧ (empty.commit p).1 = 2 ∧
    (Inspection.commit empty p).records = [.grew 2] ∧ (grownSlots empty h).ncard = 1 := by
  intro p h
  have counted : (empty.commit p).1 = 2 := by
    simp only [p, commit, Profile.toList, absorbAll, isNew, sizeAt_absorb, sizeAt_empty]
    decide
  have grown : grownSlots empty h = {7} := by
    ext slot
    rw [mem_grownSlots, show h = (empty.absorbAll p.toList).2 from rfl, sizeAt_lt_absorbAll_iff]
    simp [p, Profile.toList, isNew, eq_comm]
  refine ⟨p.decode_spaced (Json.spaced_compact p.tokens), counted, ?_, ?_⟩
  · rw [Inspection.records_commit, counted]
    rfl
  · rw [grown, Set.ncard_singleton]

end History

/-! ## The slots that a history counts -/

/-- The slots that readings name, with whatever size. -/
def Reading.named (readings : List Reading) : Finset UInt64 := (readings.map Reading.slot).toFinset

theorem Reading.mem_named {readings : List Reading} {slot : UInt64} :
    slot ∈ named readings ↔ ∃ r ∈ readings, r.slot = slot := by
  simp [named]

namespace History

theorem length_eq_card {h : History} {slots : Finset UInt64}
    (hm : ∀ slot, slot ∈ h.best ↔ slot ∈ slots) : h.length = slots.card := by
  have same : h.best.keys.toFinset = slots := by
    ext slot
    rw [List.mem_toFinset, Std.HashMap.mem_keys, hm]
  rw [← same, List.toFinset_card_of_nodup Std.HashMap.nodup_keys, Std.HashMap.length_keys]
  rfl

/-- **The length of a history** is the number of slots that were named since the last clearing. -/
theorem length_run (steps : List Step) :
    (empty.run steps).length = (Reading.named (Step.committed steps)).card :=
  length_eq_card fun slot => by rw [mem_run, Reading.mem_named]

theorem isEmpty_run_iff (steps : List Step) :
    (empty.run steps).isEmpty = true ↔ Step.committed steps = [] := by
  have counted : (empty.run steps).isEmpty = true ↔ (empty.run steps).length = 0 := by
    rw [isEmpty, Std.HashMap.isEmpty_eq_size_eq_zero, beq_iff_eq]
    rfl
  rw [counted, length_run, Finset.card_eq_zero, Reading.named, List.toFinset_eq_empty_iff,
    List.map_eq_nil_iff]

/-- The slots that have a size. -/
def sized (h : History) : Set UInt64 := {slot | h.sizeAt slot ≠ 0}

theorem mem_sized {h : History} {slot : UInt64} : slot ∈ h.sized ↔ h.sizeAt slot ≠ 0 := Iff.rfl

theorem sized_subset_named (steps : List Step) :
    (empty.run steps).sized ⊆ Reading.named (Step.committed steps) := by
  intro slot hslot
  rw [Finset.mem_coe, Reading.mem_named, ← mem_run]
  exact mem_of_sizeAt_ne_zero hslot

/-- If no reading is of size 0, the slots that are named are those that have a size. -/
theorem sized_eq_named {steps : List Step} (hz : ∀ r ∈ Step.committed steps, r.size ≠ 0) :
    (empty.run steps).sized = Reading.named (Step.committed steps) := by
  ext slot
  rw [Finset.mem_coe, Reading.mem_named, mem_sized, sizeAt_run, Reading.exists_slot_iff hz]

/-- As many slots have a size as were named exactly if all of them have. -/
theorem ncard_sized_eq_iff (steps : List Step) :
    (empty.run steps).sized.ncard = (Reading.named (Step.committed steps)).card ↔
      ∀ r ∈ Step.committed steps, (empty.run steps).sizeAt r.slot ≠ 0 := by
  rw [← Set.ncard_coe_finset]
  constructor
  · intro same r hr
    have all : (empty.run steps).sized = Reading.named (Step.committed steps) :=
      Set.eq_of_subset_of_ncard_le (sized_subset_named steps) same.ge (Finset.finite_toSet _)
    have hmem : r.slot ∈ (Reading.named (Step.committed steps) : Set UInt64) :=
      Finset.mem_coe.2 (Reading.mem_named.2 ⟨r, hr, rfl⟩)
    rw [← all] at hmem
    exact hmem
  · intro all
    refine congrArg Set.ncard (Set.Subset.antisymm (sized_subset_named steps) ?_)
    intro slot hslot
    obtain ⟨r, hr, rfl⟩ := Reading.mem_named.1 (Finset.mem_coe.1 hslot)
    exact all r hr

/-- **A history counts the slots that are named.** After any commits and clearings its length is the
number of slots that were listed since the last clearing, with whatever size, and it is empty exactly
if nothing was. Every slot that has a size is among them, and the length is the number of these
exactly if no slot was listed with size 0 alone. If no reading was of size 0, the length is the number
of slots that have a size, and the history is empty exactly if there is none. -/
theorem length_counts_named_slots (steps : List Step) :
    let h := empty.run steps
    let listed := Step.committed steps
    h.length = (Reading.named listed).card ∧
    (h.isEmpty = true ↔ listed = []) ∧
    h.sized ⊆ Reading.named listed ∧
    (h.sized.ncard = h.length ↔ ∀ r ∈ listed, h.sizeAt r.slot ≠ 0) ∧
    ((∀ r ∈ listed, r.size ≠ 0) →
      h.sized.ncard = h.length ∧ (h.isEmpty = true ↔ ∀ slot, h.sizeAt slot = 0)) := by
  intro h listed
  have length : h.length = (Reading.named listed).card := length_run steps
  refine ⟨length, isEmpty_run_iff steps, sized_subset_named steps, ?_, fun hz => ⟨?_, ?_⟩⟩
  · rw [length]
    exact ncard_sized_eq_iff steps
  · rw [length, ← Set.ncard_coe_finset, sized_eq_named hz]
  · rw [isEmpty_run_iff]
    constructor
    · intro none slot
      rw [sizeAt_run, none]
      rfl
    · intro none
      refine List.eq_nil_iff_forall_not_mem.2 fun r hr => ?_
      have hmem : r.slot ∈ h.sized := by
        rw [sized_eq_named hz, Finset.mem_coe, Reading.mem_named]
        exact ⟨r, hr, rfl⟩
      exact hmem (none r.slot)

/-- Two profiles after a clearing, one of which lists a slot twice and out of order. -/
theorem length_counts_named_slots_repeated :
    let steps : List Step := [.commit ⟨#[⟨8, 0⟩]⟩, .clear, .commit ⟨#[⟨7, 9⟩, ⟨3, 1⟩, ⟨7, 5⟩]⟩,
      .commit ⟨#[⟨3, 4⟩]⟩]
    let h := empty.run steps
    (∀ r ∈ Step.committed steps, r.size ≠ 0) ∧ h.length = 2 ∧ h.sized.ncard = h.length ∧
    h.isEmpty = false := by
  intro steps h
  have hz : ∀ r ∈ Step.committed steps, r.size ≠ 0 := by decide
  obtain ⟨length, empty_iff, -, -, sizes⟩ := length_counts_named_slots steps
  refine ⟨hz, length.trans (by decide), (sizes hz).1, ?_⟩
  · exact Bool.eq_false_iff.2 fun hempty => absurd (empty_iff.1 hempty) (by decide)

/-- A profile that lists slot 3 with size 0. Its text is read as it stands, and after its commit the
history is not empty and has length 1, although no slot has a size. -/
theorem length_counts_slot_without_size :
    let p : Profile := ⟨#[⟨3, 0⟩]⟩
    let h := empty.run [.commit p]
    Profile.reader.decode p.json = .ok p ∧ h.length = 1 ∧ h.isEmpty = false ∧
    (∀ slot, h.sizeAt slot = 0) ∧ h.sized.ncard = 0 := by
  intro p h
  have none : ∀ slot, h.sizeAt slot = 0 := by
    intro slot
    rw [sizeAt_run]
    simp [p, Step.committed, Profile.toList, Reading.largestFor]
  have nothing : h.sized = ∅ := Set.eq_empty_of_forall_notMem fun slot hs => hs (none slot)
  refine ⟨p.decode_spaced (Json.spaced_compact p.tokens), ?_, ?_, none, ?_⟩
  · exact (length_run _).trans (by decide)
  · exact Bool.eq_false_iff.2 fun hempty => absurd ((isEmpty_run_iff _).1 hempty) (by decide)
  · rw [nothing, Set.ncard_empty]

end History

end HeapWatch
