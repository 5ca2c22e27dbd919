import HeapWatch.Profile
import HeapWatch.Threshold
/-!
# Alarms: `MapSnapshot::anomalies`

The slots of a run whose size passes a threshold over a baseline, in the order of the run's
readings.
-/

namespace HeapWatch

/-- A slot that grew suspiciously between a baseline and a run (`Anomaly`). -/
structure Alarm where
  slot : UInt64
  /-- What the baseline has for the slot, 0 if nothing. -/
  baseline : UInt64
  /-- What the run has for it. -/
  observed : UInt64
deriving DecidableEq, Repr

namespace Profile

/-- The alarm that one reading of a run raises over the baseline, if it raises one. -/
def alarm? (baseline : Profile) (threshold : Threshold) (r : Reading) : Option Alarm :=
  let before := baseline.sizeAt r.slot
  if threshold.isExceeded before r.size then some ⟨r.slot, before, r.size⟩ else none

/-- The alarms that a run raises over the baseline (`MapSnapshot::anomalies`). -/
def alarms (run baseline : Profile) (threshold : Threshold) : List Alarm :=
  run.toList.filterMap (baseline.alarm? threshold)

end Profile

end HeapWatch
