import HeapWatch.Proofs.Commits
/-!
# Runs in two parts

The calls of a run can be shared out over two tables, each of which sees its part alone, and nothing
is lost. A slot's largest size is the larger one of those in the parts, so the captured parts
together have the canonical profile of the whole run, and a history that takes in both parts is the
one that takes in the whole.
-/

namespace HeapWatch

/-! ## The parts of a run -/

namespace Call

section Split

variable {calls first second : List Call} (hs : calls.Perm (first ++ second)) (hr : .reset ∉ calls)
include hs hr

/-- **A slot's largest size** is the larger one of those in the two parts. -/
theorem largestIn_split (slot : Fin slotCount) :
    largestIn calls slot = max (largestIn first slot) (largestIn second slot) := by
  have hparts : .reset ∉ first ++ second := fun h => hr (hs.mem_iff.2 h)
  rw [List.mem_append, not_or] at hparts
  have asked : ∀ r, r ∈ calls.filterMap recorded? ↔
      r ∈ first.filterMap recorded? ∨ r ∈ second.filterMap recorded? := by
    intro r
    rw [(hs.filterMap recorded?).mem_iff, List.filterMap_append, List.mem_append]
  refine word_eq_of_upper_bounds fun b => ?_
  rw [Std.max_le_iff, largestIn_le_iff, largestIn_le_iff, largestIn_le_iff,
    sinceReset_of_notMem hr, sinceReset_of_notMem hparts.1, sinceReset_of_notMem hparts.2]
  simp only [asked, or_imp, forall_and]

/-- So is the size that the run's profile lists for any number. -/
theorem largestFor_profile_split (number : UInt64) :
    Reading.largestFor (Call.profile calls).toList number =
      max (Reading.largestFor (Call.profile first).toList number)
        (Reading.largestFor (Call.profile second).toList number) := by
  refine word_eq_of_upper_bounds fun b => ?_
  simp only [Std.max_le_iff, largestFor_profile_le_iff, largestIn_split hs hr, forall_and]

end Split

end Call

/-- **The parts together** have the canonical profile of the whole run. -/
theorem Profile.ofReadings_profile_split {calls first second : List Call}
    (hs : calls.Perm (first ++ second)) (hr : .reset ∉ calls) :
    ofReadings ((Call.profile first).toList ++ (Call.profile second).toList) =
      Call.profile calls := by
  refine eq_of_largestFor (canonical_ofReadings _) (canonical_profile calls) fun number => ?_
  rw [largestFor_ofReadings, Reading.largestFor_append, Call.largestFor_profile_split hs hr]

/-! ## Committed in parts -/

namespace History

theorem absorbAll_append (h : History) (first second : List Reading) :
    (h.absorbAll (first ++ second)).2 = ((h.absorbAll first).2.absorbAll second).2 := by
  induction first generalizing h with
  | nil => rfl
  | cons r first ih =>
    rw [List.cons_append]
    simp only [absorbAll, ih]

/-- **Two commits can stand for one** that lists the larger sizes, on any history. -/
theorem same_commit_commit (h : History) {p q whole : Profile} (hp : p.Canonical)
    (hq : q.Canonical) (hw : whole.Canonical)
    (larger : ∀ slot, Reading.largestFor whole.toList slot =
      max (Reading.largestFor p.toList slot) (Reading.largestFor q.toList slot)) :
    Same ((h.commit p).2.commit q).2 (h.commit whole).2 := by
  have parts : ∀ r ∈ p.toList ++ q.toList, r.size ≠ 0 := List.forall_mem_append.2 ⟨hp.2, hq.2⟩
  unfold commit
  rw [← absorbAll_append]
  apply same_absorbAll_of_largestFor h parts hw.2
  intro slot
  rw [Reading.largestFor_append, larger]

end History

/-! ## Both -/

/-- **Splitting a run loses nothing.** Let calls without a reset be shared out over two parts, each
in any order, and let the whole and either part be run on an empty table, whatever the sources
answer. Then the captured parts together have the canonical profile that the whole run has; and on
any history, to commit one part and then the other, in either order, leaves each slot the size, and
the history the length, that committing the whole run leaves. -/
theorem Watch.split_run_loses_nothing {σ τ υ : Type} (source : Source σ) (memory : Memory)
    (state : σ) (source₁ : Source τ) (memory₁ : Memory) (state₁ : τ) (source₂ : Source υ)
    (memory₂ : Memory) (state₂ : υ) {calls first second : List Call}
    (hs : calls.Perm (first ++ second)) (hr : .reset ∉ calls) (h : History) :
    let whole := Profile.capture (run source ⟨.empty, memory, state⟩ calls).table
    let one := Profile.capture (run source₁ ⟨.empty, memory₁, state₁⟩ first).table
    let other := Profile.capture (run source₂ ⟨.empty, memory₂, state₂⟩ second).table
    Profile.ofReadings (one.toList ++ other.toList) = whole ∧
    (∀ slot : UInt64,
      ((h.commit one).2.commit other).2.sizeAt slot = (h.commit whole).2.sizeAt slot ∧
      ((h.commit other).2.commit one).2.sizeAt slot = (h.commit whole).2.sizeAt slot) ∧
    ((h.commit one).2.commit other).2.length = (h.commit whole).2.length ∧
    ((h.commit other).2.commit one).2.length = (h.commit whole).2.length := by
  intro whole one other
  have hwhole : whole = Call.profile calls := Profile.capture_run source memory state calls
  have hone : one = Call.profile first := Profile.capture_run source₁ memory₁ state₁ first
  have hother : other = Call.profile second := Profile.capture_run source₂ memory₂ state₂ second
  have hs' : calls.Perm (second ++ first) := hs.trans List.perm_append_comm
  rw [hwhole, hone, hother]
  have forth := History.same_commit_commit h (Profile.canonical_profile first)
    (Profile.canonical_profile second) (Profile.canonical_profile calls)
    (Call.largestFor_profile_split hs hr)
  have back := History.same_commit_commit h (Profile.canonical_profile second)
    (Profile.canonical_profile first) (Profile.canonical_profile calls)
    (Call.largestFor_profile_split hs' hr)
  refine ⟨Profile.ofReadings_profile_split hs hr, fun slot => ⟨?_, ?_⟩, ?_, ?_⟩
  · exact forth.sizeAt_eq slot
  · exact back.sizeAt_eq slot
  · exact forth.length_eq
  · exact back.length_eq

/-- Two sites of one slot and a third, whose requests are shared out in turns, the one part to a
source that refuses and the other to one that grants. The history knows the slot already, with a
size between those of the parts, and another slot with size 0. -/
theorem Watch.split_run_loses_nothing_in_turns :
    let refusing : Source Unit := ⟨fun _ _ state => (none, state)⟩
    let granting : Source Nat := ⟨fun _ _ next => (some next, next + 64)⟩
    let first : List Call := [.allocate 7 ⟨0x1000⟩, .allocateZeroed 3 50 ⟨0x41000⟩]
    let second : List Call := [.observe ⟨0x2000⟩ 9, .allocate 100 ⟨0x1000⟩]
    let calls : List Call := [.allocate 7 ⟨0x1000⟩, .observe ⟨0x2000⟩ 9,
      .allocateZeroed 3 50 ⟨0x41000⟩, .allocate 100 ⟨0x1000⟩]
    let one := Profile.capture (run refusing ⟨.empty, .filled 0, ()⟩ first).table
    let other := Profile.capture (run granting ⟨.empty, .filled 1, 64⟩ second).table
    let whole := Profile.capture (run refusing ⟨.empty, .filled 2, ()⟩ calls).table
    let h := (History.empty.commit ⟨#[⟨256, 120⟩, ⟨300, 0⟩]⟩).2
    Profile.ofReadings (one.toList ++ other.toList) = whole ∧
    ((h.commit one).2.commit other).2.sizeAt 256 = 150 ∧
    ((h.commit other).2.commit one).2.sizeAt 256 = 150 ∧
    ((h.commit other).2.commit one).2.length = ((h.commit one).2.commit other).2.length := by
  intro refusing granting first second calls one other whole h
  have hs : calls.Perm (first ++ second) := by decide
  have hr : .reset ∉ calls := by decide
  obtain ⟨together, sizes, forth, back⟩ := split_run_loses_nothing refusing (.filled 2) ()
    refusing (.filled 0) () granting (.filled 1) 64 hs hr h
  have before : h.sizeAt 256 = 120 := by
    rw [History.sizeAt_commit, History.sizeAt_empty]
    decide
  have asked : Reading.largestFor whole.toList 256 = 150 := by
    rw [show whole = Call.profile calls from Profile.capture_run refusing (.filled 2) () calls]
    exact (Call.largestFor_profile calls ⟨256, by decide⟩).trans (by decide +kernel)
  have known : (h.commit whole).2.sizeAt 256 = 150 := by
    rw [History.sizeAt_commit, before, asked]
    decide
  refine ⟨together, ?_, ?_, back.trans forth.symm⟩
  · exact (sizes 256).1.trans known
  · exact (sizes 256).2.trans known

end HeapWatch
