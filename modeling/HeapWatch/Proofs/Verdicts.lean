import HeapWatch.Inspection
import HeapWatch.Proofs.Commits
/-!
# What a verdict predicts

A run is judged by the history as it stands, but committed reading by reading to a history that
changes under way. Where a slot is listed several times the two may disagree on how much is new.
They never disagree on whether anything is: the commit counts a reading, raises a slot and leaves its
record exactly if the run was interesting. Once it is committed, the same run is of no interest, and
a second commit of it changes nothing.
-/

namespace HeapWatch

namespace History

/-! ## Growth -/

/-- **A profile is interesting exactly if its commit raises a slot.** -/
theorem isInteresting_iff_raises (h : History) (p : Profile) :
    h.isInteresting p = true ↔ ∃ slot, h.sizeAt slot < (h.commit p).2.sizeAt slot := by
  unfold commit
  simp only [isInteresting, List.any_eq_true, sizeAt_lt_absorbAll_iff]
  constructor
  · rintro ⟨r, hr, hnew⟩
    exact ⟨r.slot, r, hr, rfl, hnew⟩
  · rintro ⟨-, r, hr, -, hnew⟩
    exact ⟨r, hr, hnew⟩

/-! ## The same profile once more -/

/-- What a committed profile lists for a slot is no more than the history has for it. -/
theorem largestFor_le_sizeAt_commit (h : History) (p : Profile) (slot : UInt64) :
    Reading.largestFor p.toList slot ≤ (h.commit p).2.sizeAt slot := by
  rw [sizeAt_commit]
  exact (Std.max_le_iff.1 (UInt64.le_refl _)).2

theorem news_commit (h : History) (p : Profile) : (h.commit p).2.news p = [] := by
  rw [news, List.filter_eq_nil_iff]
  intro r hr
  have known := Reading.largestFor_le_iff.1 (h.largestFor_le_sizeAt_commit p r.slot) r hr rfl
  rw [isNew_eq_false_iff.2 known]
  exact Bool.false_ne_true

theorem isInteresting_commit (h : History) (p : Profile) :
    (h.commit p).2.isInteresting p = false := by
  rw [isInteresting_eq, news_commit]
  rfl

/-- **A second commit changes nothing**, not even the slots that are remembered with size 0. -/
theorem same_commit_again (h : History) (p : Profile) :
    Same ((h.commit p).2.commit p).2 (h.commit p).2 := by
  apply Same.of_mem
  · intro slot
    unfold commit
    simp only [mem_absorbAll, or_assoc, or_self]
  · intro slot
    rw [sizeAt_commit]
    exact word_max_of_le (h.largestFor_le_sizeAt_commit p slot)

end History

namespace Inspection

/-! ## Records -/

theorem exists_info_iff (h : History) (run : Profile) :
    (∃ note ∈ (commit h run).records, note.level = .info) ↔ (h.commit run).1 ≠ 0 := by
  rw [records_commit]
  by_cases none : (h.commit run).1 = 0
  · simp [none]
  · simp [none, Note.level]

/-- **The verdict predicts the commit.** On any history, a run that may list anything is interesting
exactly if its commit counts a reading, exactly if it raises some slot above its size before, and
exactly if it leaves a record. Right after the commit the run has no news and is not interesting, and
a second commit counts nothing and leaves every slot its size and the history its length. -/
theorem verdict_predicts_commit (h : History) (run : Profile) :
    let interesting := (isInteresting h run).value
    let committed := commit h run
    let grown := committed.value.1
    let after := committed.value.2
    let again := commit after run
    (interesting = true ↔ grown ≠ 0) ∧
    (interesting = true ↔ ∃ slot, h.sizeAt slot < after.sizeAt slot) ∧
    (interesting = true ↔ ∃ note ∈ committed.records, note.level = .info) ∧
    after.news run = [] ∧
    (isInteresting after run).value = false ∧
    again.value.1 = 0 ∧
    (∀ slot, again.value.2.sizeAt slot = after.sizeAt slot) ∧
    again.value.2.length = after.length := by
  intro interesting committed grown after again
  have counted : interesting = true ↔ grown ≠ 0 :=
    (h.isInteresting_iff_grown run).trans Nat.pos_iff_ne_zero
  have settled : after.isInteresting run = false := h.isInteresting_commit run
  have same : History.Same again.value.2 after := h.same_commit_again run
  refine ⟨counted, h.isInteresting_iff_raises run, ?_, h.news_commit run, settled, ?_,
    same.sizeAt_eq, same.length_eq⟩
  · exact counted.trans (exists_info_iff h run).symm
  · exact (after.grown_commit_eq_zero_iff run).2 settled

end Inspection

end HeapWatch
