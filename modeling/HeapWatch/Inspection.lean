import HeapWatch.History
import HeapWatch.Log
import HeapWatch.Profile.Alarm
/-!
# Inspection, on the record

The four things a harness does with a table and its profiles (`capture`, `anomalies`,
`is_interesting`, `commit`), each leaving its record. The values are those of `Profile` and
`History`; a commit that raises nothing leaves no record.
-/

namespace HeapWatch.Inspection

def capture (t : SizeTable) : Logged Note Profile :=
  let p := Profile.capture t
  ⟨p, [.captured p.length]⟩

/-- The alarms of a run over a baseline. -/
def alarms (run baseline : Profile) (threshold : Threshold) : Logged Note (List Alarm) :=
  let found := run.alarms baseline threshold
  ⟨found, [.compared found.length run.length baseline.length]⟩

def isInteresting (h : History) (run : Profile) : Logged Note Bool :=
  let verdict := h.isInteresting run
  ⟨verdict, [.judged verdict]⟩

/-- Takes a run into the history, and counts the readings that raised it. -/
def commit (h : History) (run : Profile) : Logged Note (Nat × History) :=
  let (grown, h) := h.commit run
  ⟨(grown, h), if grown = 0 then [] else [.grew grown]⟩

theorem records_commit (h : History) (run : Profile) :
    (commit h run).records =
      if (h.commit run).1 = 0 then [] else [.grew (h.commit run).1] := rfl

end HeapWatch.Inspection
