import HeapWatch.Json.Writer
import HeapWatch.Profile.Alarm
/-!
# The JSON forms of readings, profiles, alarms and thresholds

Each is a record (`SlotSize`, `MapSnapshot`, `Anomaly`, `AnomalyPolicy`, with the derived `Serialize`
and `Deserialize`). A threshold may leave fields out and then has their defaults; the others may not.
A profile is read as it stands: nothing is sorted, merged or dropped. Each is written as the compact
text of its tokens.
-/

namespace HeapWatch

open Json

/-! ## Readings -/

def Reading.shape : Shape UInt64 2 where
  name := "struct SlotSize"
  fields := #v["index", "size"]
  defaults := #v[none, none]
  reader := .word

def Reading.reader : Reader Reading := Reading.shape.record.map fun v => ⟨v[0], v[1]⟩

def Reading.tokens (r : Reading) : Tokens := Reading.shape.write writeWord #v[r.slot, r.size]

def Reading.json (r : Reading) : Bytes := compact r.tokens

/-! ## Profiles -/

def Profile.shape : Shape (Array Reading) 1 where
  name := "struct MapSnapshot"
  fields := #v["slots"]
  defaults := #v[none]
  reader := Reading.reader.list

/-- Reads a profile as it stands. -/
def Profile.reader : Reader Profile := Profile.shape.record.map fun v => ⟨v[0]⟩

def Profile.tokens (p : Profile) : Tokens :=
  Profile.shape.write (fun readings => writeList Reading.tokens readings.toList) #v[p.readings]

def Profile.json (p : Profile) : Bytes := compact p.tokens

/-! ## Alarms -/

def Alarm.shape : Shape UInt64 3 where
  name := "struct Anomaly"
  fields := #v["index", "baseline", "observed"]
  defaults := #v[none, none, none]
  reader := .word

def Alarm.reader : Reader Alarm := Alarm.shape.record.map fun v => ⟨v[0], v[1], v[2]⟩

def Alarm.tokens (a : Alarm) : Tokens :=
  Alarm.shape.write writeWord #v[a.slot, a.baseline, a.observed]

def Alarm.json (a : Alarm) : Bytes := compact a.tokens

/-! ## Thresholds -/

/-- The fields of a threshold. Each has a default. -/
def Threshold.shape : Shape UInt64 2 where
  name := "struct AnomalyPolicy"
  fields := #v["min_size", "growth_factor"]
  defaults := #v[some ({} : Threshold).leastSize, some ({} : Threshold).growthFactor]
  reader := .word

def Threshold.reader : Reader Threshold := Threshold.shape.record.map fun v => ⟨v[0], v[1]⟩

def Threshold.tokens (t : Threshold) : Tokens :=
  Threshold.shape.write writeWord #v[t.leastSize, t.growthFactor]

def Threshold.json (t : Threshold) : Bytes := compact t.tokens

end HeapWatch
