import HeapWatch.Comparison
import HeapWatch.Proofs.Alarms
/-!
# What a comparison decides

A comparison ends in one of three ways, which its exit code and its output tell apart: there is no
alarm, there are some, or something is missing and is told (`Comparison.loads_or_fails`). Nothing of
a profile's file counts but the largest size that it lists for each slot.
-/

namespace HeapWatch.Comparison

/-! ## What the files say -/

/-- The file at a path holds a text that is read as a value. -/
def Reads {α : Type} (r : Json.Reader α) (store : FileStore) (path : String) (value : α) : Prop :=
  ∃ text, store.readText path = .ok text ∧ r.decode text = .ok value

/-- Why it does not. -/
inductive Unread {α : Type} (r : Json.Reader α) (store : FileStore) (path : String) :
    LoadFault → Prop where
  | file {fault : FileFault} (hread : store.readText path = .error fault) :
    Unread r store path (.file fault)
  | text {text : Bytes} {refusal : Json.Refusal} (hread : store.readText path = .ok text)
    (hdecode : r.decode text = .error refusal) : Unread r store path (.text refusal)

/-- The file at a path lists these readings. -/
abbrev Lists (store : FileStore) (path : String) (listed : Profile) : Prop :=
  Reads Profile.reader store path listed

/-- The file at a path sets this threshold. Without a path it is the usual one. -/
def Sets (store : FileStore) : Option String → Threshold → Prop
  | none, t => t = {}
  | some path, t => Reads Threshold.reader store path t

/-- The failure of a threshold that was not read. -/
def Failure.ofThreshold : LoadFault → Failure
  | .file fault => .thresholdUnreadable fault
  | .text refusal => .thresholdRefused refusal

/-- The arguments that make a request: two, or three. -/
def Request.arguments (request : Request) : List String :=
  [request.baseline, request.run] ++ request.threshold.toList

/-- The arguments make a request, a threshold is set, and a baseline and a run are listed. -/
def Loads (store : FileStore) (arguments : List String) (t : Threshold) (baseline run : Profile) :
    Prop :=
  ∃ request : Request, arguments = request.arguments ∧ Sets store request.threshold t ∧
    Lists store request.baseline baseline ∧ Lists store request.run run

/-- The first thing that is wrong. All that comes before it is right, and what comes after it may be
wrong as well. -/
inductive Fails (store : FileStore) : List String → Failure → Prop where
  | usage {arguments : List String} (htwo : arguments.length ≠ 2) (hthree : arguments.length ≠ 3) :
    Fails store arguments .usage
  | threshold {baseline run path : String} {fault : LoadFault}
    (h : Unread Threshold.reader store path fault) :
    Fails store [baseline, run, path] (.ofThreshold fault)
  | baseline {request : Request} {t : Threshold} {fault : LoadFault}
    (hset : Sets store request.threshold t) (h : Unread Profile.reader store request.baseline fault) :
    Fails store request.arguments (.profileNotLoaded fault)
  | run {request : Request} {t : Threshold} {baseline : Profile} {fault : LoadFault}
    (hset : Sets store request.threshold t) (hbaseline : Lists store request.baseline baseline)
    (h : Unread Profile.reader store request.run fault) :
    Fails store request.arguments (.profileNotLoaded fault)

/-- The largest size that the run lists for a slot exceeds the threshold over the largest that the
baseline lists. -/
def Alarming (t : Threshold) (baseline run : Profile) (slot : UInt64) : Prop :=
  t.isExceeded (Reading.largestFor baseline.toList slot) (Reading.largestFor run.toList slot) = true

instance (t : Threshold) (baseline run : Profile) (slot : UInt64) :
    Decidable (Alarming t baseline run slot) :=
  inferInstanceAs (Decidable (_ = true))

/-! ## Loading -/

section Loading

variable {store : FileStore} {path : String} {arguments : List String}

theorem reads_or_unread {α : Type} (r : Json.Reader α) (store : FileStore) (path : String) :
    (∃ value, Reads r store path value) ∨ ∃ fault, Unread r store path fault := by
  cases hread : store.readText path with
  | error fault => exact Or.inr ⟨_, .file hread⟩
  | ok text =>
    cases hdecode : r.decode text with
    | error refusal => exact Or.inr ⟨_, .text hread hdecode⟩
    | ok value => exact Or.inl ⟨value, text, hread, hdecode⟩

theorem loadProfile_of_lists {p : Profile} (h : Lists store path p) :
    loadProfile store path = .ok (.ofReadings p.toList) := by
  obtain ⟨text, hread, hdecode⟩ := h
  simp only [loadProfile, Profile.load, Profile.ofBytes, hread, hdecode]

theorem loadProfile_of_unread {fault : LoadFault} (h : Unread Profile.reader store path fault) :
    loadProfile store path = .error (.profileNotLoaded fault) := by
  cases h with
  | file hread => simp only [loadProfile, Profile.load, hread]
  | text hread hdecode => simp only [loadProfile, Profile.load, Profile.ofBytes, hread, hdecode]

theorem loadThreshold_of_sets {threshold : Option String} {t : Threshold}
    (h : Sets store threshold t) : loadThreshold store threshold = .ok t := by
  cases threshold with
  | none => exact congrArg Except.ok h.symm
  | some path =>
    obtain ⟨text, hread, hdecode⟩ := h
    simp only [loadThreshold, hread, hdecode]

theorem loadThreshold_of_unread {fault : LoadFault} (h : Unread Threshold.reader store path fault) :
    loadThreshold store (some path) = .error (.ofThreshold fault) := by
  cases h with
  | file hread => simp only [loadThreshold, Failure.ofThreshold, hread]
  | text hread hdecode => simp only [loadThreshold, Failure.ofThreshold, hread, hdecode]

theorem Request.ofArguments?_arguments (request : Request) :
    ofArguments? request.arguments = some request := by
  obtain ⟨baseline, run, threshold⟩ := request
  cases threshold <;> rfl

theorem load_arguments (store : FileStore) (request : Request) :
    load store request.arguments = (do
      let threshold ← loadThreshold store request.threshold
      let baseline ← loadProfile store request.baseline
      let run ← loadProfile store request.run
      return (threshold, baseline, run)) := by
  rw [load, Request.ofArguments?_arguments]

theorem load_of_loads {t : Threshold} {baseline run : Profile}
    (h : Loads store arguments t baseline run) :
    load store arguments = .ok (t, .ofReadings baseline.toList, .ofReadings run.toList) := by
  obtain ⟨request, rfl, hset, hbaseline, hrun⟩ := h
  rw [load_arguments, loadThreshold_of_sets hset, loadProfile_of_lists hbaseline,
    loadProfile_of_lists hrun]
  rfl

theorem load_of_fails {failure : Failure} (h : Fails store arguments failure) :
    load store arguments = .error failure := by
  cases h with
  | usage htwo hthree =>
    unfold load
    match arguments with
    | [] | [_] | _ :: _ :: _ :: _ :: _ => rfl
    | [_, _] => exact absurd rfl htwo
    | [_, _, _] => exact absurd rfl hthree
  | @threshold baseline run path _ h =>
    have three := load_arguments store ⟨baseline, run, some path⟩
    rw [loadThreshold_of_unread h] at three
    exact three
  | baseline hset h =>
    rw [load_arguments, loadThreshold_of_sets hset, loadProfile_of_unread h]
    rfl
  | run hset hbaseline h =>
    rw [load_arguments, loadThreshold_of_sets hset, loadProfile_of_lists hbaseline,
      loadProfile_of_unread h]
    rfl

/-- **Either all is loaded or something is wrong first.** -/
theorem loads_or_fails (store : FileStore) (arguments : List String) :
    (∃ t baseline run, Loads store arguments t baseline run) ∨
      ∃ failure, Fails store arguments failure := by
  have profiles : ∀ (request : Request) (t : Threshold), Sets store request.threshold t →
      (∃ t baseline run, Loads store request.arguments t baseline run) ∨
        ∃ failure, Fails store request.arguments failure := by
    intro request t hset
    rcases reads_or_unread Profile.reader store request.baseline with ⟨b, hb⟩ | ⟨fault, h⟩
    · rcases reads_or_unread Profile.reader store request.run with ⟨r, hr⟩ | ⟨fault, h⟩
      · exact Or.inl ⟨t, b, r, request, rfl, hset, hb, hr⟩
      · exact Or.inr ⟨_, .run hset hb h⟩
    · exact Or.inr ⟨_, .baseline hset h⟩
  match arguments with
  | [] | [_] | _ :: _ :: _ :: _ :: _ =>
    exact Or.inr ⟨.usage, .usage (by simp) (by simp)⟩
  | [baseline, run] => exact profiles ⟨baseline, run, none⟩ {} rfl
  | [baseline, run, path] =>
    rcases reads_or_unread Threshold.reader store path with ⟨t, hset⟩ | ⟨fault, h⟩
    · exact profiles ⟨baseline, run, some path⟩ t hset
    · exact Or.inr ⟨_, .threshold h⟩

end Loading

/-! ## The two ways that a comparison goes -/

section Run

variable {store : FileStore} {arguments : List String}

/-- The outcome depends on what is loaded and on nothing else. -/
theorem run_congr {store' : FileStore} {arguments' : List String}
    (h : load store arguments = load store' arguments') (v : Verbosity) :
    run store arguments v = run store' arguments' v := by
  simp only [run, compare, h]

theorem lines_singleton (v : Verbosity) (remark : Remark) :
    [remark].filterMap (Remark.line? v) = (remark.line? v).toList := by
  cases h : remark.line? v <;> simp [h]

theorem compare_of_loads {t : Threshold} {baseline run : Profile}
    (h : Loads store arguments t baseline run) :
    let baseline := Profile.ofReadings baseline.toList
    let run := Profile.ofReadings run.toList
    let found := run.alarms baseline t
    compare store arguments =
      ⟨.ok found, [.note (.compared found.length run.length baseline.length)]⟩ := by
  rw [compare, load_of_loads h]
  rfl

/-- **What comes of a comparison**: a line for each slot that is alarming, by ascending slot, and one
record. -/
theorem run_of_loads {t : Threshold} {baseline run : Profile}
    (h : Loads store arguments t baseline run) (v : Verbosity) :
    ∃ slots : List UInt64, slots.Pairwise (· < ·) ∧
      (∀ slot, slot ∈ slots ↔ Alarming t baseline run slot) ∧
      Comparison.run store arguments v =
        { exitCode := if slots = [] then 0 else 1
          output := slots.map fun slot => Alarm.line
            ⟨slot, Reading.largestFor baseline.toList slot, Reading.largestFor run.toList slot⟩
          errors := (v.line? .debug (Note.message .exact (.compared slots.length
            (Profile.ofReadings run.toList).length
            (Profile.ofReadings baseline.toList).length))).toList } := by
  obtain ⟨slots, ascending, mem, found⟩ := Profile.alarms_ofReadings run.toList baseline.toList t
  refine ⟨slots, ascending, mem, ?_⟩
  rw [Comparison.run, compare_of_loads h, found]
  have code : exitCode (.ok (slots.map fun slot => ⟨slot, Reading.largestFor baseline.toList slot,
      Reading.largestFor run.toList slot⟩)) = if slots = [] then 0 else 1 := by
    cases slots <;> rfl
  simp only [code, alarms, List.map_map, List.length_map, lines_singleton]
  rfl

/-- **What comes of a failure**: it is told, and nothing else. -/
theorem run_of_fails {failure : Failure} (h : Fails store arguments failure) (v : Verbosity) :
    run store arguments v = ⟨1, [], ((Remark.failed failure).line? v).toList⟩ := by
  rw [run, compare, load_of_fails h]
  simp only [alarms, lines_singleton]
  rfl

end Run

/-! ## Telling the outcomes apart -/

section Outcomes

variable {store : FileStore} {arguments : List String}

theorem quiet_or_alarmed {t : Threshold} {baseline run : Profile}
    (h : Loads store arguments t baseline run) (v : Verbosity) :
    let outcome := Comparison.run store arguments v
    (outcome.exitCode = 0 ∧ outcome.output = [] ∧ ∀ slot, ¬ Alarming t baseline run slot) ∨
      outcome.exitCode = 1 ∧ outcome.output ≠ [] ∧ ∃ slot, Alarming t baseline run slot := by
  intro outcome
  obtain ⟨slots, -, mem, ends⟩ := run_of_loads h v
  rw [show outcome = _ from ends]
  cases slots with
  | nil => exact Or.inl ⟨rfl, rfl, fun slot ha => List.not_mem_nil ((mem slot).2 ha)⟩
  | cons slot rest =>
    exact Or.inr ⟨rfl, List.cons_ne_nil _ _, slot, (mem slot).1 List.mem_cons_self⟩

theorem failed {failure : Failure} (h : Fails store arguments failure) (v : Verbosity) :
    (run store arguments v).exitCode = 1 ∧ (run store arguments v).output = [] := by
  rw [run_of_fails h]
  exact ⟨rfl, rfl⟩

theorem exitCode_eq_zero_iff (v : Verbosity) :
    (run store arguments v).exitCode = 0 ↔ ∃ t baseline run,
      Loads store arguments t baseline run ∧ ∀ slot, ¬ Alarming t baseline run slot := by
  constructor
  · intro zero
    rcases loads_or_fails store arguments with ⟨t, b, r, h⟩ | ⟨failure, h⟩
    · rcases quiet_or_alarmed h v with ⟨-, -, quiet⟩ | ⟨one, -⟩
      · exact ⟨t, b, r, h, quiet⟩
      · exact absurd (zero.symm.trans one) (by decide)
    · exact absurd (zero.symm.trans (failed h v).1) (by decide)
  · rintro ⟨t, b, r, h, quiet⟩
    rcases quiet_or_alarmed h v with ⟨zero, -⟩ | ⟨-, -, slot, ha⟩
    · exact zero
    · exact absurd ha (quiet slot)

theorem output_ne_nil_iff (v : Verbosity) :
    (run store arguments v).exitCode = 1 ∧ (run store arguments v).output ≠ [] ↔
      ∃ t baseline run, Loads store arguments t baseline run ∧
        ∃ slot, Alarming t baseline run slot := by
  constructor
  · rintro ⟨-, printed⟩
    rcases loads_or_fails store arguments with ⟨t, b, r, h⟩ | ⟨failure, h⟩
    · rcases quiet_or_alarmed h v with ⟨-, empty, -⟩ | ⟨-, -, alarmed⟩
      · exact absurd empty printed
      · exact ⟨t, b, r, h, alarmed⟩
    · exact absurd (failed h v).2 printed
  · rintro ⟨t, b, r, h, slot, ha⟩
    rcases quiet_or_alarmed h v with ⟨-, -, quiet⟩ | ⟨one, printed, -⟩
    · exact absurd ha (quiet slot)
    · exact ⟨one, printed⟩

theorem output_eq_nil_iff (v : Verbosity) :
    (run store arguments v).exitCode = 1 ∧ (run store arguments v).output = [] ↔
      ∃ failure, Fails store arguments failure := by
  constructor
  · rintro ⟨one, empty⟩
    rcases loads_or_fails store arguments with ⟨t, b, r, h⟩ | found
    · rcases quiet_or_alarmed h v with ⟨zero, -⟩ | ⟨-, printed, -⟩
      · exact absurd (zero.symm.trans one) (by decide)
      · exact absurd empty printed
    · exact found
  · rintro ⟨failure, h⟩
    exact failed h v

theorem errors_of_fails {failure : Failure} (h : Fails store arguments failure) (v : Verbosity) :
    (failure = .usage → (run store arguments v).errors =
      ["usage: compare_snapshots <baseline.json> <run.json> [policy.json]"]) ∧
    (failure ≠ .usage → (run store arguments v).errors =
      if v.shows .error then ["ERROR: " ++ failure.message] else []) := by
  rw [run_of_fails h]
  constructor
  · rintro rfl
    rfl
  · intro hne
    have record : (Remark.failed failure).line? v = v.line? .error failure.message := by
      cases failure with
      | usage => exact absurd rfl hne
      | _ => rfl
    rw [record, Verbosity.line?]
    split <;> rfl

/-- **What a comparison decides.** It exits with 0 exactly if all is loaded and no slot is alarming.
It exits with 1 and an output exactly if all is loaded and a slot is alarming; the output has a line
for each that is, by ascending slot. It exits with 1 and without an output exactly if something is
wrong, and tells the first thing that is: the usage always, anything else in a record. -/
theorem run_decides (store : FileStore) (arguments : List String) (v : Verbosity) :
    let outcome := run store arguments v
    (outcome.exitCode = 0 ↔ ∃ t baseline run, Loads store arguments t baseline run ∧
      ∀ slot, ¬ Alarming t baseline run slot) ∧
    (outcome.exitCode = 1 ∧ outcome.output ≠ [] ↔ ∃ t baseline run,
      Loads store arguments t baseline run ∧ ∃ slot, Alarming t baseline run slot) ∧
    (∀ t baseline run, Loads store arguments t baseline run →
      ∃ slots : List UInt64, slots.Pairwise (· < ·) ∧
        (∀ slot, slot ∈ slots ↔ Alarming t baseline run slot) ∧
        outcome.output = slots.map fun slot => Alarm.line
          ⟨slot, Reading.largestFor baseline.toList slot, Reading.largestFor run.toList slot⟩) ∧
    (outcome.exitCode = 1 ∧ outcome.output = [] ↔ ∃ failure, Fails store arguments failure) ∧
    ∀ failure, Fails store arguments failure →
      (∀ other, Fails store arguments other → other = failure) ∧
      (failure = .usage → outcome.errors =
        ["usage: compare_snapshots <baseline.json> <run.json> [policy.json]"]) ∧
      (failure ≠ .usage → outcome.errors =
        if v.shows .error then ["ERROR: " ++ failure.message] else []) := by
  intro outcome
  refine ⟨exitCode_eq_zero_iff v, output_ne_nil_iff v, ?_, output_eq_nil_iff v, ?_⟩
  · intro t b r h
    obtain ⟨slots, ascending, mem, ends⟩ := run_of_loads h v
    exact ⟨slots, ascending, mem, congrArg Outcome.output ends⟩
  · intro failure h
    refine ⟨?_, errors_of_fails h v⟩
    intro other h'
    have first := load_of_fails h
    rw [load_of_fails h'] at first
    exact Except.error.inj first

/-- Two slots are alarming, the second for a reading that comes first. Where the threshold is missing
and the baseline is no text, only the former is told. -/
theorem run_decides_first_failure :
    let baseline := ascii "\x7b\"slots\":[\x7b\"index\":3,\"size\":5\x7d]\x7d"
    let grown := ascii "[[[9,6],[3,1],[3,6],[4,0]]]"
    let threshold := ascii "\x7b\"growth_factor\":1,\"min_size\":0\x7d"
    let store : FileStore :=
      .ofFiles [("b", baseline), ("r", grown), ("p", threshold), ("t", [0xFF])]
    let found := run store ["b", "r", "p"] none
    found.exitCode = 1 ∧ found.output ≠ [] ∧
    (∃ slots : List UInt64, slots.Pairwise (· < ·) ∧ 3 ∈ slots ∧ 4 ∉ slots ∧ 9 ∈ slots ∧
      found.output.length = slots.length) ∧
    (run store ["b", "b", "p"] none).exitCode = 0 ∧
    (run store ["t", "b", "gone"] (some .error)).errors =
      ["ERROR: could not read policy: No such file or directory (os error 2)"] ∧
    (run store ["t", "b", "gone"] none).errors = [] ∧
    (run store ["t", "b", "gone", "gone"] none).errors =
      ["usage: compare_snapshots <baseline.json> <run.json> [policy.json]"] := by
  intro baseline grown threshold store found
  have sets : Sets store (some "p") ⟨0, 1⟩ :=
    ⟨threshold, by decide +kernel, by decide +kernel⟩
  have lists : Lists store "b" ⟨#[⟨3, 5⟩]⟩ := ⟨baseline, by decide +kernel, by decide +kernel⟩
  have listsGrown : Lists store "r" ⟨#[⟨9, 6⟩, ⟨3, 1⟩, ⟨3, 6⟩, ⟨4, 0⟩]⟩ :=
    ⟨grown, by decide +kernel, by decide +kernel⟩
  have loads : Loads store ["b", "r", "p"] ⟨0, 1⟩ _ _ :=
    ⟨⟨"b", "r", some "p"⟩, rfl, sets, lists, listsGrown⟩
  have same : Loads store ["b", "b", "p"] ⟨0, 1⟩ _ _ :=
    ⟨⟨"b", "b", some "p"⟩, rfl, sets, lists, lists⟩
  have unset : Fails store ["t", "b", "gone"] (.ofThreshold (.file .notFound)) :=
    .threshold (.file (by decide +kernel))
  have usage : Fails store ["t", "b", "gone", "gone"] .usage := .usage (by decide) (by decide)
  obtain ⟨-, alarmed, lines, -⟩ := run_decides store ["b", "r", "p"] none
  obtain ⟨one, printed⟩ := alarmed.2 ⟨_, _, _, loads, 3, by decide⟩
  obtain ⟨slots, ascending, mem, output⟩ := lines _ _ _ loads
  refine ⟨one, printed, ⟨slots, ascending, (mem 3).2 (by decide), ?_, (mem 9).2 (by decide), ?_⟩,
    ?_, ?_, ?_, ?_⟩
  · exact fun h => absurd ((mem 4).1 h) (by decide)
  · rw [output, List.length_map]
  · refine (run_decides store ["b", "b", "p"] none).1.2 ⟨_, _, _, same, fun slot ha => ?_⟩
    exact UInt64.lt_irrefl _ (Threshold.isExceeded_iff.1 ha).2.1
  · rw [((run_decides store _ (some .error)).2.2.2.2 _ unset).2.2 (by decide)]
    decide +kernel
  · exact ((run_decides store _ none).2.2.2.2 _ unset).2.2 (by decide)
  · exact ((run_decides store _ none).2.2.2.2 _ usage).2.1 rfl

end Outcomes

/-! ## What the outcome depends on -/

section Same

variable {store store' : FileStore} {path path' : String}

/-- The files at two paths list the same largest size for each slot. -/
def ListSame (store : FileStore) (path : String) (store' : FileStore) (path' : String) : Prop :=
  ∃ p q, Lists store path p ∧ Lists store' path' q ∧
    ∀ slot, Reading.largestFor p.toList slot = Reading.largestFor q.toList slot

theorem loadProfile_congr (h : ListSame store path store' path') :
    loadProfile store path = loadProfile store' path' := by
  obtain ⟨p, q, hp, hq, same⟩ := h
  rw [loadProfile_of_lists hp, loadProfile_of_lists hq, Profile.ofReadings_eq_iff.2 same]

theorem loadThreshold_congr {threshold threshold' : Option String}
    (h : threshold.map store.readText = threshold'.map store'.readText) :
    loadThreshold store threshold = loadThreshold store' threshold' := by
  cases threshold with
  | none =>
    cases threshold' with
    | none => rfl
    | some path' => cases h
  | some path =>
    cases threshold' with
    | none => cases h
    | some path' =>
      have read : store.readText path = store'.readText path' := Option.some.inj h
      rw [loadThreshold, loadThreshold, read]

/-- A comparison that finds nothing: it prints nothing, and leaves at most its record. -/
def Outcome.IsQuiet (outcome : Outcome) (v : Verbosity) : Prop :=
  outcome.exitCode = 0 ∧ outcome.output = [] ∧ ∀ line ∈ outcome.errors, v.shows .debug = true ∧
    ∃ runSlots baselineSlots,
      line = "DEBUG: " ++ Note.message .exact (.compared 0 runSlots baselineSlots)

theorem isQuiet_of_le {arguments : List String} {t : Threshold} {baseline run : Profile}
    (h : Loads store arguments t baseline run)
    (hle : ∀ slot, Reading.largestFor run.toList slot ≤ Reading.largestFor baseline.toList slot)
    (v : Verbosity) : (Comparison.run store arguments v).IsQuiet v := by
  obtain ⟨slots, -, mem, ends⟩ := run_of_loads h v
  have none : slots = [] := by
    apply List.eq_nil_iff_forall_not_mem.2
    intro slot hs
    have above := (Threshold.isExceeded_iff.1 ((mem slot).1 hs)).2.1
    exact UInt64.not_lt.2 (hle slot) above
  rw [ends, none]
  refine ⟨rfl, rfl, ?_⟩
  intro line hline
  rw [Option.mem_toList] at hline
  unfold Verbosity.line? at hline
  split at hline
  · rename_i shown
    cases hline
    exact ⟨shown, _, _, rfl⟩
  · cases hline

/-- **Only the largest sizes count.** Two comparisons end alike, in exit code, output and records, if
the files of their thresholds read alike and those of their baselines and of their runs list the same
largest sizes, whatever else they list and in whatever order. Under every threshold, a run that is
nowhere above its baseline raises no alarm; so a file that lists a profile never does so over itself. -/
theorem run_reads_largest (v : Verbosity) :
    (∀ (store store' : FileStore) (first second : Request),
      first.threshold.map store.readText = second.threshold.map store'.readText →
      ListSame store first.baseline store' second.baseline →
      ListSame store first.run store' second.run →
      run store first.arguments v = run store' second.arguments v) ∧
    (∀ (store : FileStore) (arguments : List String) (t : Threshold) (baseline run : Profile),
      Loads store arguments t baseline run →
      (∀ slot, Reading.largestFor run.toList slot ≤ Reading.largestFor baseline.toList slot) →
      (Comparison.run store arguments v).IsQuiet v) ∧
    ∀ (store : FileStore) (path : String) (threshold : Option String) (t : Threshold) (p : Profile),
      Sets store threshold t → Lists store path p →
      (run store (Request.arguments ⟨path, path, threshold⟩) v).IsQuiet v := by
  refine ⟨?_, ?_, ?_⟩
  · intro store store' first second hread hbaseline hrun
    apply run_congr
    rw [load_arguments, load_arguments, loadThreshold_congr hread, loadProfile_congr hbaseline,
      loadProfile_congr hrun]
  · intro store arguments t baseline run h hle
    exact isQuiet_of_le h hle v
  · intro store path threshold t p hset h
    have loads : Loads store (Request.arguments ⟨path, path, threshold⟩) t p p :=
      ⟨_, rfl, hset, h, h⟩
    exact isQuiet_of_le loads (fun slot => UInt64.le_refl _) v

/-- A file with its members and readings in another order, with blanks, with a member that is not
known, with smaller sizes of the same slot and with a size of 0. -/
theorem run_reads_largest_rewritten :
    let plain := ascii "\x7b\"slots\":[\x7b\"index\":3,\"size\":5\x7d,\x7b\"index\":9,\"size\":2\x7d]\x7d"
    let rewritten := ascii (" \x7b \"made\" : [\"by\", \x7b\"hand\":-1e9\x7d],\n\"slots\":[[9,2], "
      ++ "\x7b\"size\":5,\"index\":3\x7d,[3,4] ,[3,5],\x7b\"index\":7,\"size\":0\x7d]\x7d\r\n")
    let grown := ascii "[[[3,6],[9,2]]]"
    let threshold := ascii "[0,0]"
    let holding (baseline : Bytes) : FileStore :=
      .ofFiles [("b", baseline), ("r", grown), ("p", threshold)]
    (∀ v, run (holding plain) ["b", "r", "p"] v = run (holding rewritten) ["b", "r", "p"] v) ∧
    run (holding rewritten) ["b", "r", "p"] (some .debug) =
      { exitCode := 1
        output := ["slot 0x0003: 5 -> 6 bytes"]
        errors := ["DEBUG: 1 anomalies over baseline (2 slots vs 2 slots)"] } ∧
    (∀ v, (run (holding rewritten) ["r", "b", "p"] v).IsQuiet v) ∧
    ∀ v, (run (holding rewritten) ["b", "b", "p"] v).IsQuiet v := by
  intro plain rewritten grown threshold holding
  let listed : Profile := ⟨#[⟨3, 5⟩, ⟨9, 2⟩]⟩
  let larger : Profile := ⟨#[⟨3, 6⟩, ⟨9, 2⟩]⟩
  have lists : Lists (holding plain) "b" listed := ⟨plain, by decide +kernel, by decide +kernel⟩
  have listsRewritten : Lists (holding rewritten) "b" ⟨#[⟨9, 2⟩, ⟨3, 5⟩, ⟨3, 4⟩, ⟨3, 5⟩, ⟨7, 0⟩]⟩ :=
    ⟨rewritten, by decide +kernel, by decide +kernel⟩
  have listsGrown : Lists (holding plain) "r" larger :=
    ⟨grown, by decide +kernel, by decide +kernel⟩
  have listsGrown' : Lists (holding rewritten) "r" larger :=
    ⟨grown, by decide +kernel, by decide +kernel⟩
  have sets : Sets (holding rewritten) (some "p") ⟨0, 0⟩ :=
    ⟨threshold, by decide +kernel, by decide +kernel⟩
  have alike : ∀ v, run (holding plain) ["b", "r", "p"] v =
      run (holding rewritten) ["b", "r", "p"] v := by
    intro v
    refine (run_reads_largest v).1 _ _ ⟨"b", "r", some "p"⟩ ⟨"b", "r", some "p"⟩
      (by decide +kernel) ⟨_, _, lists, listsRewritten, fun slot => UInt64.le_antisymm ?_ ?_⟩
      ⟨_, _, listsGrown, listsGrown', fun _ => rfl⟩
    · exact Reading.forall_largestFor_le_iff.2 (by decide) slot
    · exact Reading.forall_largestFor_le_iff.2 (by decide) slot
  refine ⟨alike, (alike _).symm.trans ?_, fun v => ?_, fun v => ?_⟩
  · have loads : Loads (holding plain) ["b", "r", "p"] ⟨0, 0⟩ listed larger :=
      ⟨⟨"b", "r", some "p"⟩, rfl, ⟨threshold, by decide +kernel, by decide +kernel⟩, lists,
        listsGrown⟩
    have hb : Profile.ofReadings listed.toList = listed :=
      (Profile.ofReadings_eq_self_iff listed).2 (by decide)
    have hr : Profile.ofReadings larger.toList = larger :=
      (Profile.ofReadings_eq_self_iff larger).2 (by decide)
    rw [run, compare_of_loads loads, hb, hr]
    decide +kernel
  · exact (run_reads_largest v).2.1 _ _ _ _ _
      ⟨⟨"r", "b", some "p"⟩, rfl, sets, listsGrown', listsRewritten⟩
      (Reading.forall_largestFor_le_iff.2 (by decide))
  · exact (run_reads_largest v).2.2 _ "b" (some "p") _ _ sets listsRewritten

end Same

end HeapWatch.Comparison
