import HeapWatch.Program
import Mathlib.Data.List.Induction
import Mathlib.Data.List.Infix
/-!
# Re-entered hooks

A hook body that starts while another is live has re-entered the hooks. The detector is told of every
start and of every end, in the order in which they happen on a thread. Starts and ends are well nested:
no body ends before it has started. So the detector's count is the number of live bodies, and the most
it has seen is the most that were ever live at once (`Nesting.counts_run`).
-/

namespace HeapWatch

namespace Nesting

variable {n : Nesting} {marks early : List Mark}

/-! ## Live bodies -/

@[simp] theorem live_nil : live [] = 0 := rfl

theorem live_append (a b : List Mark) : live (a ++ b) = live a + live b := by
  simp only [live, List.count_append]
  omega

@[simp] theorem live_enter (marks : List Mark) : live (.enter :: marks) = live marks + 1 := by
  simp [live]
  omega

@[simp] theorem live_leave (marks : List Mark) : live (.leave :: marks) = live marks - 1 := by
  simp [live]
  omega

instance (marks : List Mark) : Decidable (WellNested marks) :=
  decidable_of_iff (∀ early ∈ marks.inits, 0 ≤ live early) (by simp only [List.mem_inits]; rfl)

theorem WellNested.of_prefix (h : WellNested marks) (hp : early <+: marks) : WellNested early :=
  fun earlier he => h earlier (he.trans hp)

theorem wellNested_concat_iff {m : Mark} :
    WellNested (marks ++ [m]) ↔ WellNested marks ∧ 0 ≤ live (marks ++ [m]) := by
  constructor
  · intro h
    exact ⟨h.of_prefix (List.prefix_append ..), h _ (List.prefix_refl _)⟩
  · rintro ⟨h, hlive⟩ early he
    rcases List.prefix_concat_iff.1 he with rfl | he
    · exact hlive
    · exact h early he

theorem foldr_max_le_iff {lives : List Int} {bound : Int} :
    lives.foldr max 0 ≤ bound ↔ 0 ≤ bound ∧ ∀ x ∈ lives, x ≤ bound := by
  induction lives with
  | nil => simp
  | cons x lives ih =>
    rw [List.foldr_cons, Int.max_le, ih, List.forall_mem_cons]
    exact and_left_comm

/-- The most bodies that are live at any moment, told by its bounds. -/
theorem mostLive_le_iff {bound : Int} :
    mostLive marks ≤ bound ↔ ∀ early, early <+: marks → live early ≤ bound := by
  rw [mostLive, foldr_max_le_iff]
  constructor
  · rintro ⟨-, h⟩ early he
    refine h _ (List.mem_map.2 ⟨early.length, ?_, ?_⟩)
    · exact List.mem_range.2 (Nat.lt_succ_of_le he.length_le)
    · rw [← List.prefix_iff_eq_take.1 he]
  · intro h
    refine ⟨h [] List.nil_prefix, fun x hx => ?_⟩
    obtain ⟨k, -, rfl⟩ := List.mem_map.1 hx
    exact h _ (List.take_prefix ..)

theorem live_le_mostLive (he : early <+: marks) : live early ≤ mostLive marks :=
  mostLive_le_iff.1 (Int.le_refl _) early he

theorem mostLive_concat (marks : List Mark) (m : Mark) :
    mostLive (marks ++ [m]) = max (mostLive marks) (live (marks ++ [m])) := by
  have bounds : ∀ bound, mostLive (marks ++ [m]) ≤ bound ↔
      max (mostLive marks) (live (marks ++ [m])) ≤ bound := by
    intro bound
    rw [Int.max_le, mostLive_le_iff, mostLive_le_iff]
    constructor
    · intro h
      exact ⟨fun early he => h early (he.trans (List.prefix_append ..)), h _ (List.prefix_refl _)⟩
    · rintro ⟨h, hlast⟩ early he
      rcases List.prefix_concat_iff.1 he with rfl | he
      · exact hlast
      · exact h early he
  exact Int.le_antisymm ((bounds _).2 (Int.le_refl _)) ((bounds _).1 (Int.le_refl _))

/-! ## What the detector knows -/

/-- The detector has counted the bodies that are live after some marks, and remembers the most that
ever were. -/
structure Counts (n : Nesting) (marks : List Mark) : Prop where
  depth : (n.depth : Int) = live marks
  deepest : (n.deepest : Int) = mostLive marks

/-- **A mark keeps what the detector knows**, unless it is an end without a start. -/
theorem counts_step (h : n.Counts marks) {m : Mark} (hlive : 0 ≤ live (marks ++ [m])) :
    (n.step m).Counts (marks ++ [m]) := by
  obtain ⟨hdepth, hdeepest⟩ := h
  have most := mostLive_concat marks m
  rw [live_append] at hlive most
  cases m with
  | enter =>
    simp only [live_enter, live_nil] at most
    constructor
    · simp only [step, enter, live_append, live_enter, live_nil]
      omega
    · simp only [step, enter]
      omega
  | leave =>
    simp only [live_leave, live_nil] at hlive most
    -- one body less is live than before, so the most that ever were stays
    have before := live_le_mostLive (List.prefix_refl marks)
    constructor
    · simp only [step, leave, live_append, live_leave, live_nil]
      omega
    · simp only [step, leave]
      omega

theorem run_concat (n : Nesting) (marks : List Mark) (m : Mark) :
    n.run (marks ++ [m]) = (n.run marks).step m := by
  simp [run]

theorem run_body (n : Nesting) (within after : List Mark) :
    n.run (.enter :: (within ++ .leave :: after)) = ((n.enter.run within).leave).run after := by
  simp [run, step]

/-- **The detector counts what is live**, over any well-nested sequence. -/
theorem counts_run (h : WellNested marks) : (run {} marks).Counts marks := by
  induction marks using List.reverseRecOn with
  | nil => exact ⟨rfl, rfl⟩
  | append_singleton marks m ih =>
    obtain ⟨h, hlive⟩ := wellNested_concat_iff.1 h
    rw [run_concat]
    exact counts_step (ih h) hlive

/-! ## Bodies that start while others are live -/

/-- Some body starts while another is live. -/
def Reenters (marks : List Mark) : Prop := ∃ early, early ++ [.enter] <+: marks ∧ 0 < live early

theorem mostLive_le_one_iff : mostLive marks ≤ 1 ↔ ¬ Reenters marks := by
  rw [mostLive_le_iff]
  constructor
  · rintro h ⟨early, he, hlive⟩
    have two := h _ he
    rw [live_append, live_enter, live_nil] at two
    omega
  · intro h early
    induction early using List.reverseRecOn with
    | nil => simp
    | append_singleton early m ih =>
      intro he
      have before := ih ((List.prefix_append ..).trans he)
      cases m with
      | enter =>
        have idle : ¬ 0 < live early := fun hlive => h ⟨early, he, hlive⟩
        rw [live_append, live_enter, live_nil]
        omega
      | leave =>
        rw [live_append, live_leave, live_nil]
        omega

/-- **More than one exactly if the hooks were re-entered.** -/
theorem deepest_le_one_iff (h : WellNested marks) :
    (run {} marks).deepest ≤ 1 ↔ ¬ Reenters marks := by
  rw [← mostLive_le_one_iff, ← (counts_run h).deepest]
  omega

theorem WellNested.exists_eq_enter_cons (h : WellNested marks) (hne : marks ≠ []) :
    ∃ rest, marks = .enter :: rest := by
  obtain ⟨m, rest, rfl⟩ := List.exists_cons_of_ne_nil hne
  cases m with
  | enter => exact ⟨rest, rfl⟩
  | leave =>
    have := h [.leave] ⟨rest, rfl⟩
    simp at this

theorem one_le_deepest (h : WellNested marks) (hne : marks ≠ []) : 1 ≤ (run {} marks).deepest := by
  obtain ⟨rest, rfl⟩ := h.exists_eq_enter_cons hne
  have one : live [.enter] ≤ mostLive (.enter :: rest) := live_le_mostLive ⟨rest, rfl⟩
  rw [← (counts_run h).deepest, live_enter, live_nil] at one
  omega

theorem prefix_append_cases {a b : List Mark} (h : early <+: a ++ b) :
    early <+: a ∨ ∃ rest, early = a ++ rest ∧ rest <+: b := by
  rcases Nat.le_total early.length a.length with hle | hle
  · exact Or.inl (List.prefix_of_prefix_length_le h (List.prefix_append ..) hle)
  · obtain ⟨rest, rfl⟩ := List.prefix_of_prefix_length_le (List.prefix_append ..) h hle
    exact Or.inr ⟨rest, rfl, (List.prefix_append_right_inj a).1 h⟩

/-- A body around what is well nested and over, and then more that is well nested. -/
theorem WellNested.body {within after : List Mark} (hw : WellNested within)
    (hover : live within = 0) (ha : WellNested after) :
    WellNested (.enter :: (within ++ .leave :: after)) := by
  intro early he
  rcases List.prefix_cons_iff.1 he with rfl | ⟨inner, rfl, hinner⟩
  · simp
  rw [live_enter]
  rcases prefix_append_cases hinner with hinner | ⟨ended, rfl, hended⟩
  · have := hw inner hinner
    omega
  rw [live_append, hover]
  rcases List.prefix_cons_iff.1 hended with rfl | ⟨rest, rfl, hrest⟩
  · simp
  · have := ha rest hrest
    rw [live_leave]
    omega

end Nesting

/-! ## What a thread does -/

/-- What a thread does, in order: work on the watch, which leaves the detector alone, and hook bodies,
each with all that is done while the body is live. -/
inductive Activity where
  | done
  | work (effect : Watch Nat → Watch Nat) (after : Activity)
  | body (within after : Activity)

namespace Activity

open Nesting

/-- The starts and ends of the bodies. -/
def marks : Activity → List Mark
  | .done => []
  | .work _ after => after.marks
  | .body within after => .enter :: (within.marks ++ .leave :: after.marks)

/-- How deep the bodies stand within each other. -/
def height : Activity → Nat
  | .done => 0
  | .work _ after => after.height
  | .body within after => max (within.height + 1) after.height

/-- The program after all of it. -/
def perform : Activity → Program → Program
  | .done, p => p
  | .work effect after, p => after.perform { p with watch := effect p.watch }
  | .body within after, p => after.perform (p.hooked fun p => (none, within.perform p)).2

theorem live_marks (a : Activity) : live a.marks = 0 := by
  induction a with
  | done => rfl
  | work effect after ih => exact ih
  | body within after ihw iha =>
    rw [marks, live_enter, live_append, live_leave, ihw, iha]
    rfl

theorem wellNested_marks (a : Activity) : WellNested a.marks := by
  induction a with
  | done =>
    intro early he
    rw [List.prefix_nil.1 he]
    decide
  | work effect after ih => exact ih
  | body within after ihw iha => exact ihw.body within.live_marks iha

/-- **The detector is told of every start and end** and of nothing else. -/
theorem nesting_perform (a : Activity) (p : Program) :
    (a.perform p).nesting = p.nesting.run a.marks := by
  induction a generalizing p with
  | done => rfl
  | work effect after ih => exact ih _
  | body within after ihw iha =>
    have entered := ihw { p with nesting := p.nesting.enter }
    rw [perform, iha, marks, run_body, ← entered]
    rfl

/-- The count is what it was before, and the bodies have stood as deep above it as their height. -/
theorem run_marks {n : Nesting} (h : n.depth ≤ n.deepest) (a : Activity) :
    n.run a.marks = ⟨n.depth, max n.deepest (n.depth + a.height)⟩ := by
  induction a generalizing n with
  | done =>
    have : max n.deepest (n.depth + 0) = n.deepest := by omega
    rw [height, this]
    rfl
  | work effect after ih => exact ih h
  | body within after ihw iha =>
    have entered : n.enter.depth ≤ n.enter.deepest := Nat.le_max_right ..
    rw [marks, run_body, ihw entered, iha, height]
    · simp only [enter, leave, Nesting.mk.injEq]
      omega
    · simp only [enter, leave]
      omega

end Activity

/-! ## The hooks -/

/-- A call of one of the two hooks. -/
inductive Hook where
  | allocate (size : UInt64) (site : Site)
  | allocateZeroed (count size : UInt64) (site : Site)
deriving DecidableEq, Repr

/-- What a hook's body does to the watch. -/
def Hook.effect : Hook → Watch Nat → Watch Nat
  | .allocate size site, w => (w.allocate Heap.system.source size site).2
  | .allocateZeroed count size site, w => (w.allocateZeroed Heap.system.source count size site).2

/-- Calls of the hooks one after the other, none of them from within another. -/
def Activity.inTurn : List Hook → Activity
  | [] => .done
  | hook :: hooks => .body (.work hook.effect .done) (inTurn hooks)

theorem Activity.height_inTurn {hooks : List Hook} (h : hooks ≠ []) : (inTurn hooks).height = 1 := by
  obtain ⟨hook, hooks, rfl⟩ := List.exists_cons_of_ne_nil h
  induction hooks generalizing hook with
  | nil => rfl
  | cons next hooks ih =>
    rw [inTurn, height, ih next (List.cons_ne_nil _ _)]
    rfl

namespace Program

open Nesting

def answer (p : Program) : Hook → Option Nat × Program
  | .allocate size site => p.allocate size site
  | .allocateZeroed count size site => p.allocateZeroed count size site

/-- The program after calls of the hooks, one after the other. -/
def answerAll (p : Program) (hooks : List Hook) : Program :=
  hooks.foldl (fun p hook => (p.answer hook).2) p

theorem perform_inTurn (hooks : List Hook) (p : Program) :
    (Activity.inTurn hooks).perform p = p.answerAll hooks := by
  induction hooks generalizing p with
  | nil => rfl
  | cons hook hooks ih =>
    rw [Activity.inTurn, Activity.perform, ih, answerAll, answerAll, List.foldl_cons]
    cases hook <;> rfl

theorem nesting_perform_fresh (a : Activity) : (a.perform fresh).nesting = ⟨0, a.height⟩ := by
  rw [a.nesting_perform, a.run_marks (Nat.le_refl _)]
  simp [fresh]

/-! ## The whole -/

/-- **The detector is exact.** Over any well-nested sequence of starts and ends, at every moment, the
count is the number of live bodies, so it is 0 when none is live; the deepest nesting is the largest
number of bodies that were live at once so far; and no end takes the count below 0. The deepest
nesting stays at most 1 exactly if no body starts while another is live, and is then 1 as soon as there
was one.

Whatever a thread does leaves such a sequence, all of it ended, and the detector of a fresh program
then has the count 0 and the height to which the bodies stood within each other; after calls of the
hooks one by one, at least one of them, that is 1. -/
theorem detector_is_exact :
    (∀ marks, WellNested marks →
      (∀ early, early <+: marks →
        ((Nesting.run {} early).depth : Int) = live early ∧
        (live early = 0 → (Nesting.run {} early).depth = 0) ∧
        ((Nesting.run {} early).deepest : Int) = mostLive early ∧
        (early ++ [.leave] <+: marks → 0 < (Nesting.run {} early).depth)) ∧
      ((Nesting.run {} marks).deepest ≤ 1 ↔ ¬ Reenters marks) ∧
      (marks ≠ [] → ¬ Reenters marks → (Nesting.run {} marks).deepest = 1)) ∧
    (∀ (a : Activity) (p : Program), WellNested a.marks ∧ live a.marks = 0 ∧
      (a.perform p).nesting = p.nesting.run a.marks ∧ (a.perform fresh).nesting = ⟨0, a.height⟩) ∧
    ∀ hooks : List Hook, hooks ≠ [] → (fresh.answerAll hooks).deepestNesting = 1 := by
  refine ⟨fun marks h => ⟨fun early he => ?_, deepest_le_one_iff h, fun hne idle => ?_⟩, ?_, ?_⟩
  · have counts := counts_run (h.of_prefix he)
    refine ⟨counts.depth, fun none => ?_, counts.deepest, fun hend => ?_⟩
    · have := counts.depth
      omega
    · -- the end that follows leaves no fewer than 0 live
      have left := h _ hend
      rw [live_append, live_leave, live_nil] at left
      have := counts.depth
      omega
  · exact Nat.le_antisymm ((deepest_le_one_iff h).2 idle) (one_le_deepest h hne)
  · intro a p
    exact ⟨a.wellNested_marks, a.live_marks, a.nesting_perform p, nesting_perform_fresh a⟩
  · intro hooks hne
    rw [deepestNesting, ← perform_inTurn, nesting_perform_fresh]
    exact Activity.height_inTurn hne

/-- A body within a body within a body, of which the first two are still live, and two calls of the
hooks in turn. -/
theorem detector_is_exact_reentered :
    let marks : List Mark := [.enter, .enter, .enter, .leave]
    WellNested marks ∧ Reenters marks ∧ ¬ (Nesting.run {} marks).deepest ≤ 1 ∧
    ((Nesting.run {} marks).depth : Int) = 2 ∧ ((Nesting.run {} marks).deepest : Int) = 3 ∧
    0 < (Nesting.run {} [.enter, .enter, .enter]).depth ∧
    (fresh.answerAll [.allocate 100 ⟨0x1000⟩, .allocateZeroed 3 50 ⟨0x2000⟩]).deepestNesting = 1 := by
  intro marks
  have nested : WellNested marks := by decide
  have reenters : Reenters marks := ⟨[.enter], ⟨[.enter, .leave], rfl⟩, by decide⟩
  obtain ⟨sequences, -, calls⟩ := detector_is_exact
  obtain ⟨moments, shallow, -⟩ := sequences marks nested
  obtain ⟨depth, -, deepest, -⟩ := moments marks (List.prefix_refl _)
  obtain ⟨-, -, -, ends⟩ := moments [.enter, .enter, .enter] ⟨[.leave], rfl⟩
  refine ⟨nested, reenters, fun flat => shallow.1 flat reenters, depth.trans ?_, deepest.trans ?_,
    ends (List.prefix_refl _), calls _ (List.cons_ne_nil _ _)⟩
  · decide
  · decide

end Program

end HeapWatch
