import HeapWatch.Inspection
import HeapWatch.ProfileFile
import HeapWatch.Report
/-!
# Comparing two profiles from the command line: `compare_snapshots`

Given the file of a baseline, the file of a run and, if wanted, the file of a threshold, the command
reports every alarm of the run over the baseline. It succeeds when there is none. Of several things
that are wrong only the first is told: the arguments, then the threshold, then the baseline, then the
run.

* `Comparison.compare`: what the command finds, with its records.
* `Comparison.run`: exit code, output and error output.
-/

namespace HeapWatch

/-- Why no profile was loaded, in all its parts. -/
def LoadFault.details : LoadFault → String
  | .file fault => "IoError(" ++ fault.details ++ ")"
  | .text refusal =>
    "SerdeJsonError(Error(" ++ Text.quoted refusal.cause.message.toList ++ ", line: "
      ++ Digits.decimal refusal.line ++ ", column: " ++ Digits.decimal refusal.column ++ "))"

namespace Comparison

/-- Why nothing was compared. -/
inductive Failure where
  /-- The command was called with too few or too many arguments. -/
  | usage
  | thresholdUnreadable (fault : FileFault)
  | thresholdRefused (refusal : Json.Refusal)
  | profileNotLoaded (fault : LoadFault)
deriving DecidableEq, Repr

inductive Remark where
  | failed (failure : Failure)
  | note (note : Note)
deriving DecidableEq, Repr

namespace Failure

def message : Failure → String
  | .usage => "usage: compare_snapshots <baseline.json> <run.json> [policy.json]"
  | .thresholdUnreadable fault => "could not read policy: " ++ fault.message
  | .thresholdRefused refusal => "bad policy: " ++ refusal.message
  | .profileNotLoaded fault => "could not load snapshot: " ++ fault.details

end Failure

namespace Remark

/-- The level of a remark that is a record. The usage is none: it is told at every verbosity. -/
def level? : Remark → Option Level
  | .failed .usage => none
  | .failed _ => some .error
  | .note n => some n.level

def message : Remark → String
  | .failed failure => failure.message
  | .note n => n.message .exact

/-- The line of a remark, if it is shown. -/
def line? (v : Verbosity) (r : Remark) : Option String :=
  match r.level? with
  | none => some r.message
  | some level => v.line? level r.message

end Remark

/-- What the command is asked to compare. -/
structure Request where
  baseline : String
  run : String
  threshold : Option String
deriving DecidableEq, Repr

/-- The request of the arguments, if there are two or three. -/
def Request.ofArguments? : List String → Option Request
  | [baseline, run] => some ⟨baseline, run, none⟩
  | [baseline, run, threshold] => some ⟨baseline, run, some threshold⟩
  | _ => none

/-- The threshold of a file, or the usual one. -/
def loadThreshold (store : FileStore) : Option String → Except Failure Threshold
  | none => .ok {}
  | some path =>
    match store.readText path with
    | .error fault => .error (.thresholdUnreadable fault)
    | .ok text =>
      match Threshold.reader.decode text with
      | .error refusal => .error (.thresholdRefused refusal)
      | .ok threshold => .ok threshold

def loadProfile (store : FileStore) (path : String) : Except Failure Profile :=
  match Profile.load store path with
  | .error fault => .error (.profileNotLoaded fault)
  | .ok p => .ok p

/-- The threshold, the baseline and the run that the arguments ask for. -/
def load (store : FileStore) (arguments : List String) :
    Except Failure (Threshold × Profile × Profile) :=
  match Request.ofArguments? arguments with
  | none => .error .usage
  | some request => do
    let threshold ← loadThreshold store request.threshold
    let baseline ← loadProfile store request.baseline
    let run ← loadProfile store request.run
    return (threshold, baseline, run)

/-- The alarms of the run over the baseline, or why nothing was compared. -/
def compare (store : FileStore) (arguments : List String) :
    Logged Remark (Except Failure (List Alarm)) :=
  match load store arguments with
  | .error failure => ⟨.error failure, [.failed failure]⟩
  | .ok (threshold, baseline, run) =>
    (Except.ok <$> Inspection.alarms run baseline threshold).mapRecords .note

/-- The alarms to report. -/
def alarms : Except Failure (List Alarm) → List Alarm
  | .ok alarms => alarms
  | .error _ => []

/-- The exit code of what was found. -/
def exitCode : Except Failure (List Alarm) → UInt8
  | .ok [] => 0
  | _ => 1

/-- How a command ends. -/
structure Outcome where
  exitCode : UInt8
  output : List String
  errors : List String
deriving DecidableEq, Repr

/-- The command (`main` of `compare_snapshots`): it exits with 0 if something was compared and there is
no alarm, and with 1 otherwise. -/
def run (store : FileStore) (arguments : List String) (v : Verbosity) : Outcome :=
  let compared := compare store arguments
  { exitCode := exitCode compared.value
    output := (alarms compared.value).map Alarm.line
    errors := compared.records.filterMap (Remark.line? v) }

end Comparison

end HeapWatch
