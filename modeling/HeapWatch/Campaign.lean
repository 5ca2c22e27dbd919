import HeapWatch.Inspection
import HeapWatch.Json.Byte
import HeapWatch.Text.Quoted
import HeapWatch.Text.Utf8
import HeapWatch.Watch
/-!
# Campaigns: the loop of `fuzz_loop`

A campaign runs a target on one input after another. The table is reset before each run and captured
after it. A run that raises some slot above the history is interesting, and only such a run is
committed; its alarms over the baseline are reported in any case. The baseline is a run too, and is
committed first.

* `Campaign.round`: one run on one input.
* `Campaign.conduct`: the baseline and all rounds after it.
-/

namespace HeapWatch

/-- An input and the calls that the target makes on it. -/
structure Trial where
  input : Bytes
  calls : List Call
deriving DecidableEq, Repr

/-- A campaign in progress. -/
structure Campaign (σ : Type) where
  watch : Watch σ
  history : History

/-- What a round has shown. -/
structure Round where
  profile : Profile
  interesting : Bool
  /-- How many readings have raised the history, 0 if the run was not committed. -/
  grown : Nat
  alarms : List Alarm
deriving DecidableEq, Repr

namespace Campaign

/-- A record of a campaign. -/
inductive Entry where
  | note (note : Note)
  /-- The baseline was taken, with so many slots in use. -/
  | baseline (slots : Nat)
  /-- The run on an input was interesting. -/
  | interesting (input : Bytes)
  /-- The run on an input has raised an alarm. -/
  | alarm (input : Bytes) (alarm : Alarm)
deriving DecidableEq, Repr

namespace Entry

def level : Entry → Level
  | .note n => n.level
  | .baseline _ => .info
  | .interesting _ => .info
  | .alarm .. => .warn

/-- An input as it is shown. -/
def shown (input : Bytes) : String := Text.quoted (Text.Utf8.lossy input)

def message (figures : Figures) : Entry → String
  | .note n => n.message figures
  | .baseline slots => "baseline has " ++ figures.slots slots ++ " non-empty slots"
  | .interesting input => shown input ++ " is interesting"
  | .alarm input a =>
    shown input ++ ": slot " ++ figures.slot a.slot ++ " asked for "
      ++ Digits.decimal a.observed.toNat ++ " bytes (baseline "
      ++ Digits.decimal a.baseline.toNat ++ ")"

/-- The line of a record, if it is shown. -/
def line? (v : Verbosity) (figures : Figures) (e : Entry) : Option String :=
  v.line? e.level (e.message figures)

end Entry

variable {σ : Type}

/-- Runs the target's calls on a table that was reset, and captures it. -/
def observe (source : Source σ) (w : Watch σ) (calls : List Call) :
    Logged Entry (Profile × Watch σ) :=
  let w := w.reset.run source calls
  (do return (← Inspection.capture w.table, w) : Logged Note (Profile × Watch σ)).mapRecords .note

/-- Starts a campaign with the run that is its baseline. -/
def start (source : Source σ) (w : Watch σ) (calls : List Call) :
    Logged Entry (Profile × Campaign σ) := do
  let (baseline, w) ← observe source w calls
  .leave (.baseline baseline.length)
  let (_, history) ← (Inspection.commit .empty baseline).mapRecords .note
  return (baseline, ⟨w, history⟩)

/-- Commits a run if it is interesting. -/
def commitIfInteresting (h : History) (input : Bytes) (run : Profile) :
    Logged Entry (Bool × Nat × History) := do
  let interesting ← (Inspection.isInteresting h run).mapRecords .note
  if interesting then
    .leave (.interesting input)
    let (grown, h) ← (Inspection.commit h run).mapRecords .note
    return (true, grown, h)
  else return (false, 0, h)

/-- Reports the alarms of a run over the baseline. -/
def reportAlarms (input : Bytes) (run baseline : Profile) (threshold : Threshold) :
    Logged Entry (List Alarm) := do
  let alarms ← (Inspection.alarms run baseline threshold).mapRecords .note
  (⟨(), alarms.map (.alarm input)⟩ : Logged Entry Unit)
  return alarms

/-- One run on one input. -/
def round (source : Source σ) (baseline : Profile) (threshold : Threshold) (c : Campaign σ)
    (trial : Trial) : Logged Entry (Round × Campaign σ) := do
  let (run, w) ← observe source c.watch trial.calls
  let (interesting, grown, history) ← commitIfInteresting c.history trial.input run
  let alarms ← reportAlarms trial.input run baseline threshold
  return (⟨run, interesting, grown, alarms⟩, ⟨w, history⟩)

def rounds (source : Source σ) (baseline : Profile) (threshold : Threshold) (c : Campaign σ) :
    List Trial → Logged Entry (List Round × Campaign σ)
  | [] => return ([], c)
  | trial :: trials => do
    let (first, c) ← c.round source baseline threshold trial
    let (others, c) ← c.rounds source baseline threshold trials
    return (first :: others, c)

/-- The records of a campaign: those of its start, and those of its rounds. -/
structure Transcript where
  opening : List Entry
  rounds : List Entry
deriving DecidableEq, Repr

/-- Conducts a campaign from its baseline to its last round. -/
def conduct (source : Source σ) (w : Watch σ) (threshold : Threshold) (baseline : List Call)
    (trials : List Trial) : (List Round × Campaign σ) × Transcript :=
  let opening := start source w baseline
  let (profile, campaign) := opening.value
  let later := campaign.rounds source profile threshold trials
  (later.value, ⟨opening.records, later.records⟩)

/-- The lines of a transcript that are shown, with the figures of either part written as wanted. -/
def Transcript.lines (t : Transcript) (v : Verbosity) (opening rounds : Figures) : List String :=
  t.opening.filterMap (Entry.line? v opening) ++ t.rounds.filterMap (Entry.line? v rounds)

end Campaign

end HeapWatch
