import HeapWatch.Proofs.Commits
/-!
# What a history knows

A history has for each slot the largest size committed since it was last cleared. So the commits
between two clearings may come in any order, and so may the readings of each profile; no size ever
goes down before the history is cleared; and the news of a run are its readings above those sizes.
-/

namespace HeapWatch.History

/-! ## What is committed -/

theorem mem_committed {steps : List Step} (hc : .clear ∉ steps) {r : Reading} :
    r ∈ Step.committed steps ↔ ∃ p, .commit p ∈ steps ∧ r ∈ p.toList := by
  induction steps with
  | nil => simp [Step.committed]
  | cons s steps ih =>
    rw [List.mem_cons, not_or] at hc
    cases s with
    | clear => exact absurd rfl hc.1
    | commit p =>
      rw [Step.committed, if_neg hc.2, List.mem_append, ih hc.2]
      simp [or_and_right, exists_or]

/-! ## What a history has after a sequence of steps -/

/-- What a history had before counts until it is cleared. -/
theorem sizeAt_run_from (h : History) (steps : List Step) (slot : UInt64) :
    (h.run steps).sizeAt slot =
      max (if .clear ∈ steps then 0 else h.sizeAt slot)
        (Reading.largestFor (Step.committed steps) slot) := by
  induction steps generalizing h with
  | nil => exact (word_max_zero _).symm
  | cons s steps ih =>
    rw [run, List.foldl_cons, ← run, ih]
    cases s with
    | clear =>
      have forgotten : (h.step .clear).sizeAt slot = 0 := sizeAt_empty slot
      rw [forgotten, ite_self, if_pos List.mem_cons_self, Step.committed]
    | commit p =>
      by_cases hc : .clear ∈ steps
      · rw [if_pos hc, if_pos (List.mem_cons_of_mem _ hc), Step.committed, if_pos hc]
      · have hc' : .clear ∉ .commit p :: steps := by simp [hc]
        rw [if_neg hc, if_neg hc', Step.committed, if_neg hc, Reading.largestFor_append, step,
          sizeAt_commit]
        refine word_eq_of_upper_bounds fun b => ?_
        simp only [Std.max_le_iff, and_assoc]

/-- **The size of a slot after any steps** is the largest that was committed for it since the last
clearing. -/
theorem sizeAt_run (steps : List Step) (slot : UInt64) :
    (empty.run steps).sizeAt slot = Reading.largestFor (Step.committed steps) slot := by
  rw [sizeAt_run_from, sizeAt_empty, ite_self, word_zero_max]

/-- The slots that are remembered after any steps, from a history that remembered some before. -/
theorem mem_run_from (h : History) (steps : List Step) (slot : UInt64) :
    slot ∈ (h.run steps).best ↔
      (.clear ∉ steps ∧ slot ∈ h.best) ∨ ∃ r ∈ Step.committed steps, r.slot = slot := by
  induction steps generalizing h with
  | nil => simp [run, Step.committed]
  | cons s steps ih =>
    rw [run, List.foldl_cons, ← run, ih]
    cases s with
    | clear =>
      have forgotten : slot ∉ (h.step .clear).best := Std.HashMap.not_mem_empty
      simp [Step.committed, forgotten]
    | commit p =>
      by_cases hc : .clear ∈ steps
      · simp [Step.committed, hc]
      · simp [Step.committed, hc, step, commit, mem_absorbAll, or_and_right, exists_or, or_assoc]

/-- **The slots that are remembered after any steps** are those that were committed with some size
since the last clearing. -/
theorem mem_run (steps : List Step) (slot : UInt64) :
    slot ∈ (empty.run steps).best ↔ ∃ r ∈ Step.committed steps, r.slot = slot := by
  have nothing : slot ∉ empty.best := Std.HashMap.not_mem_empty
  rw [mem_run_from, or_iff_right (fun known => nothing known.2)]

theorem run_append (h : History) (before after : List Step) :
    h.run (before ++ after) = (h.run before).run after := List.foldl_append

theorem sizeAt_le_run (h : History) {steps : List Step} (hc : .clear ∉ steps) (slot : UInt64) :
    h.sizeAt slot ≤ (h.run steps).sizeAt slot := by
  rw [sizeAt_run_from, if_neg hc]
  exact (Std.max_le_iff.1 (UInt64.le_refl _)).1

/-- **Steps can stand for others** that commit the same readings, if neither clear the history:
whatever came before them and comes after them, the sizes are the same. -/
theorem sizeAt_run_congr {block other : List Step} (hb : .clear ∉ block) (ho : .clear ∉ other)
    (same : ∀ r, r ∈ Step.committed block ↔ r ∈ Step.committed other) (before after : List Step)
    (slot : UInt64) :
    (empty.run (before ++ block ++ after)).sizeAt slot =
      (empty.run (before ++ other ++ after)).sizeAt slot := by
  have between : (empty.run (before ++ block)).sizeAt slot =
      (empty.run (before ++ other)).sizeAt slot := by
    rw [run_append, run_append, sizeAt_run_from, sizeAt_run_from _ other, if_neg hb, if_neg ho,
      Reading.largestFor_congr same]
  rw [run_append, run_append _ (before ++ other), sizeAt_run_from, sizeAt_run_from _ after, between]

/-- **A history knows the largest sizes.** After any commits and clearings, it has for each slot the
largest size that any profile committed since the last clearing lists for the slot, and 0 if there is
none. No further commit takes a size down. The commits between two clearings may come in any order,
and any of their profiles may list its readings in any order. The news of a profile are its readings
above those sizes, in its own order. -/
theorem run_knows_largest (steps : List Step) :
    let h := empty.run steps
    (∀ slot, h.sizeAt slot = Reading.largestFor (Step.committed steps) slot) ∧
    (∀ later, .clear ∉ later → ∀ slot, h.sizeAt slot ≤ (empty.run (steps ++ later)).sizeAt slot) ∧
    (∀ before block shuffled after, steps = before ++ block ++ after → .clear ∉ block →
      block.Perm shuffled →
      ∀ slot, (empty.run (before ++ shuffled ++ after)).sizeAt slot = h.sizeAt slot) ∧
    (∀ before p shuffled after, steps = before ++ .commit p :: after →
      p.toList.Perm shuffled.toList →
      ∀ slot, (empty.run (before ++ .commit shuffled :: after)).sizeAt slot = h.sizeAt slot) ∧
    ∀ p : Profile, h.news p =
      p.toList.filter fun r => Reading.largestFor (Step.committed steps) r.slot < r.size := by
  intro h
  refine ⟨sizeAt_run steps, ?_, ?_, ?_, ?_⟩
  · intro later hc slot
    rw [run_append]
    exact sizeAt_le_run h hc slot
  · rintro before block shuffled after rfl hc hp slot
    have hc' : .clear ∉ shuffled := fun hm => hc (hp.mem_iff.2 hm)
    refine (sizeAt_run_congr hc hc' (fun r => ?_) before after slot).symm
    simp only [mem_committed hc, mem_committed hc', hp.mem_iff]
  · rintro before p shuffled after rfl hp slot
    have same : ∀ r, r ∈ Step.committed [.commit p] ↔ r ∈ Step.committed [.commit shuffled] := by
      intro r
      simp [Step.committed, hp.mem_iff]
    have swapped := sizeAt_run_congr (by simp) (by simp) same before after slot
    simpa using swapped.symm
  · intro p
    unfold news isNew
    simp only [h, sizeAt_run]

/-- After a clearing, a profile that lists slot 7 three times and slot 3 with size 0, and another
one. They may be swapped, the first may list its readings in another order, and a smaller profile
takes nothing down. A reading of the size that is known is no news, and two above it both are. -/
theorem run_knows_largest_repeated :
    let p : Profile := ⟨#[⟨7, 5⟩, ⟨3, 0⟩, ⟨7, 9⟩, ⟨7, 2⟩]⟩
    let q : Profile := ⟨#[⟨3, 4⟩, ⟨7, 8⟩]⟩
    let shuffled : Profile := ⟨#[⟨7, 9⟩, ⟨7, 5⟩, ⟨7, 2⟩, ⟨3, 0⟩]⟩
    let old : List Step := [.commit ⟨#[⟨7, 900⟩]⟩, .clear]
    let block : List Step := [.commit p, .commit q]
    let swapped : List Step := [.commit q, .commit p]
    let rest : List Step := [.commit q]
    let smaller : List Step := [.commit ⟨#[⟨7, 1⟩]⟩]
    let h := empty.run (old ++ block ++ [])
    h.sizeAt 7 = 9 ∧ h.sizeAt 3 = 4 ∧ (empty.run (old ++ swapped ++ [])).sizeAt 7 = 9 ∧
    (empty.run (old ++ .commit shuffled :: rest)).sizeAt 7 = 9 ∧
    9 ≤ (empty.run (old ++ block ++ [] ++ smaller)).sizeAt 7 ∧
    h.news ⟨#[⟨7, 11⟩, ⟨3, 4⟩, ⟨7, 10⟩, ⟨5, 0⟩]⟩ = [⟨7, 11⟩, ⟨7, 10⟩] := by
  intro p q shuffled old block swapped rest smaller h
  obtain ⟨sizes, grows, swaps, shuffles, news⟩ := run_knows_largest (old ++ block ++ [])
  have seven : h.sizeAt 7 = 9 := (sizes 7).trans (by decide)
  refine ⟨seven, (sizes 3).trans (by decide), ?_, ?_, ?_, ?_⟩
  · exact (swaps old block swapped [] rfl (by decide) (by decide) 7).trans seven
  · exact (shuffles old p shuffled rest rfl (by decide) 7).trans seven
  · exact seven ▸ grows smaller (by decide) 7
  · exact (news _).trans (by decide)

end HeapWatch.History
