import HeapWatch.Proofs.Commits
import HeapWatch.Campaign
/-!
# Campaigns that commit only what is interesting

A campaign judges each run before it commits it. Nothing is lost by that: a run that is passed over
would have changed nothing, since captured profiles list no zeros. So the history at the end is the
one that has every run committed (`Campaign.rounds_spec`), and what is said of a run is said of its
requests and of those of the runs before it.
-/

namespace HeapWatch

theorem foldr_max_lt_iff {words : List UInt64} (h : words ≠ []) {b : UInt64} :
    words.foldr max 0 < b ↔ ∀ a ∈ words, a < b := by
  constructor
  · intro hlt a ha
    exact UInt64.lt_of_le_of_lt (foldr_max_le_iff.1 (UInt64.le_refl _) a ha) hlt
  · intro hall
    by_cases hz : words.foldr max 0 = 0
    · obtain ⟨a, ha⟩ := List.exists_mem_of_ne_nil words h
      rw [hz]
      exact UInt64.lt_of_le_of_lt UInt64.zero_le (hall a ha)
    · exact hall _ (foldr_max_mem hz)

/-- Calls that ask for more in a slot than each of the earlier runs. -/
def Call.Raises (earlier : List (List Call)) (calls : List Call) (slot : Fin slotCount) : Prop :=
  ∀ run ∈ earlier, largestIn run slot < largestIn calls slot

instance (earlier : List (List Call)) (calls : List Call) (slot : Fin slotCount) :
    Decidable (Call.Raises earlier calls slot) :=
  inferInstanceAs (Decidable (∀ run ∈ earlier, _))

/-! ## What a history knows of earlier runs -/

namespace History

/-- A history that has for each slot the largest size asked for in some runs. -/
def Remembers (h : History) (runs : List (List Call)) : Prop :=
  ∀ slot : Fin slotCount,
    h.sizeAt slot.val.toUInt64 = (runs.map fun run => Call.largestIn run slot).foldr max 0

theorem remembers_empty : empty.Remembers [] := fun _ => sizeAt_empty _

theorem Remembers.commit {h : History} {runs : List (List Call)} (hr : h.Remembers runs)
    (calls : List Call) : (h.commit (Call.profile calls)).2.Remembers (runs ++ [calls]) := by
  intro slot
  rw [sizeAt_commit, hr slot]
  refine word_eq_of_upper_bounds fun b => ?_
  rw [Std.max_le_iff, foldr_max_le_iff, foldr_max_le_iff, List.map_append, List.forall_mem_append,
    List.map_singleton, List.forall_mem_singleton, Call.largestFor_profile]

theorem Remembers.of_same {h h' : History} {runs : List (List Call)} (hr : h.Remembers runs)
    (s : Same h h') : h'.Remembers runs :=
  fun slot => (s.sizeAt_eq _).symm.trans (hr slot)

theorem Remembers.isNew_iff {h : History} {runs : List (List Call)} (hr : h.Remembers runs)
    (hne : runs ≠ []) (calls : List Call) (slot : Fin slotCount) :
    h.isNew ⟨slot.val.toUInt64, Call.largestIn calls slot⟩ = true ↔
      Call.Raises runs calls slot := by
  have mapped : runs.map (fun run => Call.largestIn run slot) ≠ [] :=
    fun e => hne (List.map_eq_nil_iff.1 e)
  rw [History.isNew_iff, hr slot, foldr_max_lt_iff mapped, List.forall_mem_map]
  rfl

end History

namespace Campaign

variable {σ : Type}

/-- A round without the judgement: the run is made on a table that was reset, captured and
committed. -/
def commitRun (source : Source σ) (c : Campaign σ) (calls : List Call) : Campaign σ :=
  let w := c.watch.reset.run source calls
  ⟨w, (c.history.commit (Profile.capture w.table)).2⟩

/-- The loop without the judgement. -/
def commitEvery (source : Source σ) (c : Campaign σ) (runs : List (List Call)) : Campaign σ :=
  runs.foldl (commitRun source) c

/-- **What a round says about its run**, when some runs were made before: the profile of the run's
calls, whether it raises a slot above all earlier runs, how many slots it raises, and its alarms,
which depend on nothing else than its calls, the baseline and the threshold. -/
structure Judged (baseline : Profile) (threshold : Threshold) (earlier : List (List Call))
    (calls : List Call) (round : Round) : Prop where
  profile : round.profile = Call.profile calls
  interesting : round.interesting = true ↔ ∃ slot, Call.Raises earlier calls slot
  grown : round.grown = (List.finRange slotCount).countP fun slot => Call.Raises earlier calls slot
  alarms : round.alarms = (Call.profile calls).alarms baseline threshold

/-! ## One round -/

theorem commitRun_watch (source : Source σ) (c : Campaign σ) (calls : List Call) :
    (c.commitRun source calls).watch = c.watch.reset.run source calls := rfl

theorem commitRun_history (source : Source σ) (c : Campaign σ) (calls : List Call) :
    (c.commitRun source calls).history = (c.history.commit (Call.profile calls)).2 := by
  simp only [commitRun, Profile.capture_run_reset]

theorem value_observe (source : Source σ) (w : Watch σ) (calls : List Call) :
    (observe source w calls).value = (Call.profile calls, w.reset.run source calls) := by
  rw [← Profile.capture_run_reset source w calls]
  rfl

theorem value_start (source : Source σ) (w : Watch σ) (calls : List Call) :
    (start source w calls).value =
      (Call.profile calls,
        ⟨w.reset.run source calls, (History.empty.commit (Call.profile calls)).2⟩) := by
  rw [start, Logged.value_bind, value_observe]
  simp only [Logged.value_bind, Logged.value_pure, Logged.mapRecords, Inspection.commit]

theorem value_commitIfInteresting (h : History) (input : Bytes) (run : Profile) :
    (commitIfInteresting h input run).value =
      if h.isInteresting run then (true, h.commit run) else (false, 0, h) := by
  rw [commitIfInteresting]
  cases hi : h.isInteresting run
  · simp [Inspection.isInteresting, Logged.mapRecords, hi]
  · simp [Inspection.isInteresting, Logged.mapRecords, hi]
    rfl

/-- **The judgement loses nothing**: whether the run is committed or passed over, the count is the
commit's, and the history is the same as after the commit. -/
theorem commitIfInteresting_spec (h : History) (input : Bytes) {run : Profile}
    (hc : run.Canonical) :
    let judged := (commitIfInteresting h input run).value
    judged.1 = h.isInteresting run ∧ judged.2.1 = (h.commit run).1 ∧
      History.Same judged.2.2 (h.commit run).2 := by
  intro judged
  have hj : judged = if h.isInteresting run then (true, h.commit run) else (false, 0, h) :=
    value_commitIfInteresting h input run
  cases hi : h.isInteresting run with
  | true =>
    rw [hj, hi, if_pos rfl]
    exact ⟨rfl, rfl, History.Same.refl _⟩
  | false =>
    have none : (h.commit run).1 = 0 := (h.grown_commit_eq_zero_iff run).2 hi
    rw [hj, hi, if_neg Bool.false_ne_true]
    exact ⟨rfl, none.symm,
      (History.same_commit_of_not_isInteresting h hc.2 hi).symm⟩

theorem value_round (source : Source σ) (baseline : Profile) (threshold : Threshold)
    (c : Campaign σ) (trial : Trial) :
    (c.round source baseline threshold trial).value =
      let run := Call.profile trial.calls
      let judged := (commitIfInteresting c.history trial.input run).value
      (⟨run, judged.1, judged.2.1, run.alarms baseline threshold⟩,
        ⟨c.watch.reset.run source trial.calls, judged.2.2⟩) := by
  rw [round, Logged.value_bind, value_observe]
  simp only [Logged.value_bind, Logged.value_pure, Logged.mapRecords, reportAlarms,
    Inspection.alarms]

/-- How many slots a run raises, counted over its readings and over the slots. -/
theorem countP_profile {h : History} {runs : List (List Call)} (hr : h.Remembers runs)
    (hne : runs ≠ []) (calls : List Call) :
    (Call.profile calls).toList.countP h.isNew =
      (List.finRange slotCount).countP fun slot => Call.Raises runs calls slot := by
  rw [Call.profile, Profile.toList_ofList, List.countP_map, List.countP_filter]
  refine List.countP_congr fun slot _ => ?_
  rw [Bool.and_eq_true, decide_eq_true_eq, ← hr.isNew_iff hne, bne_iff_ne]
  refine ⟨fun h => h.1, fun hnew => ⟨hnew, fun hz => ?_⟩⟩
  -- nothing is below a size of 0
  rw [hz, History.isNew_iff] at hnew
  exact UInt64.not_lt_zero hnew

/-- **One round** judges its run rightly and leaves the watch and the history of the loop that
commits every run. -/
theorem round_spec (source : Source σ) (baseline : Profile) (threshold : Threshold)
    {c : Campaign σ} {earlier : List (List Call)} (hr : c.history.Remembers earlier)
    (hne : earlier ≠ []) (trial : Trial) :
    let done := (c.round source baseline threshold trial).value
    Judged baseline threshold earlier trial.calls done.1 ∧
      done.2.watch = c.watch.reset.run source trial.calls ∧
      History.Same done.2.history (c.history.commit (Call.profile trial.calls)).2 := by
  rw [value_round]
  dsimp only
  have hc : (Call.profile trial.calls).Canonical := Profile.canonical_profile trial.calls
  obtain ⟨verdict, counted, same⟩ := commitIfInteresting_spec c.history trial.input hc
  have grown := (History.grown_commit c.history hc).trans (countP_profile hr hne trial.calls)
  refine ⟨⟨rfl, ?_, counted.trans grown, rfl⟩, rfl, same⟩
  rw [verdict, History.isInteresting_iff_grown, grown, List.countP_pos_iff]
  simp only [List.mem_finRange, true_and, decide_eq_true_eq]

/-! ## All rounds -/

theorem value_rounds_cons (source : Source σ) (baseline : Profile) (threshold : Threshold)
    (c : Campaign σ) (trial : Trial) (trials : List Trial) :
    (c.rounds source baseline threshold (trial :: trials)).value =
      let first := (c.round source baseline threshold trial).value
      let others := (first.2.rounds source baseline threshold trials).value
      (first.1 :: others.1, others.2) := by
  simp only [rounds, Logged.value_bind, Logged.value_pure]

/-- **Any number of rounds**, beside the loop that commits every run. The two loops start from
histories that are the same, and stay so round by round. -/
theorem rounds_spec (source : Source σ) (baseline : Profile) (threshold : Threshold)
    (trials : List Trial) (c every : Campaign σ) {earlier : List (List Call)}
    (hr : c.history.Remembers earlier) (hne : earlier ≠ []) (hw : c.watch = every.watch)
    (hs : History.Same c.history every.history) :
    let done := (c.rounds source baseline threshold trials).value
    History.Same done.2.history (every.commitEvery source (trials.map Trial.calls)).history ∧
      done.1.length = trials.length ∧
      ∀ j : Fin trials.length, ∃ round, done.1[j.val]? = some round ∧
        Judged baseline threshold (earlier ++ (trials.take j).map Trial.calls) trials[j].calls
          round := by
  induction trials generalizing c every earlier with
  | nil => exact ⟨hs, rfl, fun j => j.elim0⟩
  | cons trial trials ih =>
    obtain ⟨judged, watch, same⟩ := round_spec source baseline threshold hr hne trial
    rw [value_rounds_cons]
    generalize (c.round source baseline threshold trial).value = first at judged watch same
    have hw' : first.2.watch = (every.commitRun source trial.calls).watch := by
      rw [watch, commitRun_watch, hw]
    have hs' : History.Same first.2.history (every.commitRun source trial.calls).history := by
      rw [commitRun_history]
      exact same.trans (hs.absorbAll _).2
    obtain ⟨history, length, verdicts⟩ := ih first.2 (every.commitRun source trial.calls)
      ((hr.commit trial.calls).of_same same.symm)
      (List.append_ne_nil_of_right_ne_nil _ (List.cons_ne_nil _ _)) hw' hs'
    refine ⟨history, congrArg Nat.succ length, fun j => ?_⟩
    rcases j with ⟨_ | j, hj⟩
    · exact ⟨first.1, rfl, by simpa using judged⟩
    · obtain ⟨round, hround, hjudged⟩ := verdicts ⟨j, Nat.lt_of_succ_lt_succ hj⟩
      exact ⟨round, hround, by simpa using hjudged⟩

/-- **Committing only what is interesting is enough.** For any baseline run and any runs after it, a
campaign ends with the history of the loop that commits every run, size by size and slot by slot. In
each round, the run is found interesting exactly if it raises a slot above the baseline and all
earlier runs, its commit counts these slots, and its alarms are those of its own calls over the
baseline's. -/
theorem conduct_commits_enough (source : Source σ) (w : Watch σ) (threshold : Threshold)
    (baseline : List Call) (trials : List Trial) :
    let done := (conduct source w threshold baseline trials).1
    let every := commitEvery source ⟨w, .empty⟩ (baseline :: trials.map Trial.calls)
    (∀ slot : UInt64, done.2.history.sizeAt slot = every.history.sizeAt slot) ∧
    done.2.history.length = every.history.length ∧
    done.1.length = trials.length ∧
    ∀ j : Fin trials.length, ∃ round, done.1[j.val]? = some round ∧
      Judged (Call.profile baseline) threshold (baseline :: (trials.take j).map Trial.calls)
        trials[j].calls round := by
  intro done every
  have hdone : done = ((⟨w.reset.run source baseline,
      (History.empty.commit (Call.profile baseline)).2⟩ : Campaign σ).rounds source
        (Call.profile baseline) threshold trials).value := by
    simp only [done, conduct, value_start]
  have hs : History.Same (History.empty.commit (Call.profile baseline)).2
      ((⟨w, .empty⟩ : Campaign σ).commitRun source baseline).history := by
    rw [commitRun_history]
    exact History.Same.refl _
  obtain ⟨same, length, verdicts⟩ := rounds_spec source (Call.profile baseline) threshold trials
    ⟨_, _⟩ ((⟨w, .empty⟩ : Campaign σ).commitRun source baseline)
    (History.remembers_empty.commit baseline) (List.cons_ne_nil _ _)
    (commitRun_watch source ⟨w, .empty⟩ baseline).symm hs
  rw [hdone]
  exact ⟨same.sizeAt_eq, same.length_eq, length, verdicts⟩

end Campaign

end HeapWatch
