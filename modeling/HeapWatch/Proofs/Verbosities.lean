import HeapWatch.Proofs.Comparisons
/-!
# What the verbosity changes

The verbosity of a comparison chooses which of its records are shown, and changes nothing else. A
line of the error output tells by its label whether it is a record, and of which level; so what is
shown at a lower verbosity can be picked from what is shown at a higher one, line by line
(`Comparison.Remark.line?_eq_filter`). The usage has no label and is told at every verbosity.
-/

namespace HeapWatch

namespace Level

/-- What stands in front of the message of a record. -/
def label (level : Level) : String := level.name ++ ": "

/-- The level of a line, if it is a record. -/
def ofLine? (line : String) : Option Level :=
  [error, warn, info, debug, trace].find? fun level => level.label.toList.isPrefixOf line.toList

/-- **A record's level is told by its line**, whatever its message. -/
theorem ofLine?_label (level : Level) (message : String) :
    ofLine? (level.label ++ message) = some level := by
  rw [ofLine?, String.toList_append]
  cases level <;> rfl

end Level

namespace Verbosity

/-- The place of a verbosity in their order, from the one that shows nothing. -/
def rank : Verbosity → Nat
  | none => 0
  | some level => level.rank

theorem shows_iff {v : Verbosity} {level : Level} : v.shows level = true ↔ level.rank ≤ v.rank := by
  cases v with
  | none => cases level <;> simp [shows, rank, Level.rank]
  | some least => simp [shows, rank]

theorem shows_of_le {v w : Verbosity} (h : v.rank ≤ w.rank) {level : Level}
    (hs : v.shows level = true) : w.shows level = true :=
  shows_iff.2 (Nat.le_trans (shows_iff.1 hs) h)

end Verbosity

namespace Comparison

/-! ## One remark -/

theorem Remark.level?_eq_none_iff {r : Remark} : r.level? = none ↔ r = .failed .usage := by
  cases r with
  | failed failure => cases failure <;> simp [level?]
  | note n => simp [level?]

theorem Failure.ofLine?_usage : Level.ofLine? (message .usage) = none := by decide +kernel

/-- What is shown of a remark that is a record has the label of its level. -/
theorem Remark.ofLine?_eq_level? {v : Verbosity} {r : Remark} {line : String}
    (h : r.line? v = some line) : Level.ofLine? line = r.level? := by
  unfold line? at h
  cases hlevel : r.level? with
  | none =>
    obtain rfl := level?_eq_none_iff.1 hlevel
    obtain rfl := Option.some.inj h
    exact Failure.ofLine?_usage
  | some level =>
    simp only [hlevel, Verbosity.line?, Option.ite_none_right_eq_some, Option.some.injEq] at h
    obtain ⟨-, rfl⟩ := h
    exact Level.ofLine?_label level r.message

/-- **What is shown of a remark** at a verbosity is what is shown at a higher one, unless it is a
record of a level that the lower one does not show. -/
theorem Remark.line?_eq_filter {v w : Verbosity} (h : v.rank ≤ w.rank) (r : Remark) :
    r.line? v = (r.line? w).filter fun line => (Level.ofLine? line).all v.shows := by
  unfold line?
  cases hlevel : r.level? with
  | none =>
    obtain rfl := level?_eq_none_iff.1 hlevel
    have unlabelled : Level.ofLine? (message (.failed .usage)) = none := Failure.ofLine?_usage
    simp [Option.filter, unlabelled]
  | some level =>
    have labelled : Level.ofLine? (level.name ++ ": " ++ r.message) = some level :=
      Level.ofLine?_label level r.message
    simp only [Verbosity.line?]
    by_cases hv : v.shows level = true
    · simp [Option.filter, labelled, hv, Verbosity.shows_of_le h hv]
    · by_cases hw : w.shows level = true
      · simp [Option.filter, labelled, hv, hw]
      · simp [hv, hw]

/-! ## A whole comparison -/

section Run

variable {store : FileStore} {arguments : List String}

theorem fails_usage_iff :
    Fails store arguments .usage ↔ arguments.length ≠ 2 ∧ arguments.length ≠ 3 := by
  constructor
  · intro h
    generalize hf : Failure.usage = failure at h
    cases h with
    | usage htwo hthree => exact ⟨htwo, hthree⟩
    | @threshold _ _ _ fault h => cases fault <;> cases hf
    | baseline => cases hf
    | run => cases hf
  · rintro ⟨htwo, hthree⟩
    exact .usage htwo hthree

/-- **The usage is told** exactly if the arguments make no request, whatever the verbosity. -/
theorem usage_mem_errors_iff (v : Verbosity) :
    Failure.message .usage ∈ (run store arguments v).errors ↔
      arguments.length ≠ 2 ∧ arguments.length ≠ 3 := by
  rw [← @fails_usage_iff store]
  constructor
  · intro told
    obtain ⟨remark, left, line⟩ := List.mem_filterMap.1 told
    have unlabelled : remark.level? = none :=
      (Remark.ofLine?_eq_level? line).symm.trans Failure.ofLine?_usage
    obtain rfl := Remark.level?_eq_none_iff.1 unlabelled
    rcases loads_or_fails store arguments with ⟨t, baseline, run, h⟩ | ⟨failure, h⟩
    · rw [compare_of_loads h] at left
      cases List.mem_singleton.1 left
    · rw [compare, load_of_fails h] at left
      cases List.mem_singleton.1 left
      exact h
  · intro h
    rw [run_of_fails h]
    exact List.mem_singleton.2 rfl

/-- **The verbosity hides records and decides nothing.** At two verbosities a comparison ends with the
same exit code and prints the same output. What it tells at the lower one is what it tells at the
higher one, in the same order, without the records of the levels that the lower one does not show. The
usage is told at every verbosity, exactly if the arguments are not two and not three. -/
theorem run_hides_records {v w : Verbosity} (h : v.rank ≤ w.rank) (store : FileStore)
    (arguments : List String) :
    let fewer := run store arguments v
    let more := run store arguments w
    fewer.exitCode = more.exitCode ∧ fewer.output = more.output ∧
    fewer.errors = more.errors.filter (fun line => (Level.ofLine? line).all v.shows) ∧
    ∀ u, Failure.message .usage ∈ (run store arguments u).errors ↔
      arguments.length ≠ 2 ∧ arguments.length ≠ 3 := by
  intro fewer more
  refine ⟨rfl, rfl, ?_, usage_mem_errors_iff⟩
  have each : Remark.line? v = fun remark =>
      (remark.line? w).filter fun line => (Level.ofLine? line).all v.shows :=
    funext (Remark.line?_eq_filter h)
  change (compare store arguments).records.filterMap (Remark.line? v) =
    ((compare store arguments).records.filterMap (Remark.line? w)).filter _
  rw [each, List.filter_filterMap]

/-- Nothing is shown, or errors, or all: an alarm with its record, a threshold that is not there, and
a call without a run. -/
theorem run_hides_records_in_order :
    let store : FileStore :=
      .ofFiles [("b", ascii "[[]]"), ("r", ascii "[[[3,9]]]"), ("t", ascii "[0,0]")]
    let quiet : Verbosity := none
    let least : Verbosity := some .error
    let all : Verbosity := some .trace
    (quiet.rank ≤ least.rank ∧ least.rank ≤ all.rank) ∧
    (run store ["b", "r", "t"] least).errors = [] ∧
    (run store ["b", "r", "t"] all).errors =
      ["DEBUG: 1 anomalies over baseline (1 slots vs 0 slots)"] ∧
    (run store ["b", "r", "t"] least).output = (run store ["b", "r", "t"] all).output ∧
    (run store ["b", "r", "gone"] quiet).exitCode = (run store ["b", "r", "gone"] least).exitCode ∧
    (run store ["b", "r", "gone"] quiet).errors = [] ∧
    (run store ["b", "r", "gone"] least).errors =
      ["ERROR: could not read policy: No such file or directory (os error 2)"] ∧
    Failure.message .usage ∈ (run store ["b"] quiet).errors := by
  intro store quiet least all
  have low : quiet.rank ≤ least.rank := by decide
  have high : least.rank ≤ all.rank := by decide
  have compared : (run store ["b", "r", "t"] all).errors =
      ["DEBUG: 1 anomalies over baseline (1 slots vs 0 slots)"] := by decide +kernel
  have failed : (run store ["b", "r", "gone"] least).errors =
      ["ERROR: could not read policy: No such file or directory (os error 2)"] := by decide +kernel
  obtain ⟨-, output, hidden, -⟩ := run_hides_records high store ["b", "r", "t"]
  obtain ⟨code, -, none, -⟩ := run_hides_records low store ["b", "r", "gone"]
  obtain ⟨-, -, -, usage⟩ := run_hides_records low store ["b"]
  rw [compared] at hidden
  rw [failed] at none
  refine ⟨⟨low, high⟩, hidden.trans ?_, compared, output, code, none.trans ?_, failed,
    (usage quiet).2 (by decide)⟩
  · decide +kernel
  · decide +kernel

end Run

end Comparison

end HeapWatch
