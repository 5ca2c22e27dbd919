import HeapWatch.Digits
/-!
# Records of what was done

Reading a table, comparing profiles and judging runs leaves records, each with a level. Who runs the
program chooses the least important level that is still shown, or shows none.

* `Logged`: a value with the records that its making has left.
* `Note`: the records that the library leaves, and `Note.message`, their wording.
-/

namespace HeapWatch

/-- How important a record is, the most important first. -/
inductive Level where
  | error
  | warn
  | info
  | debug
  | trace
deriving DecidableEq, Repr

namespace Level

/-- The place of a level in their order, from 1. -/
def rank : Level → Nat
  | .error => 1
  | .warn => 2
  | .info => 3
  | .debug => 4
  | .trace => 5

def name : Level → String
  | .error => "ERROR"
  | .warn => "WARN"
  | .info => "INFO"
  | .debug => "DEBUG"
  | .trace => "TRACE"

end Level

/-- The least important level that is shown, or nothing when no record is (`RUST_LOG`). -/
abbrev Verbosity := Option Level

/-- The verbosity of a name, in lower case. -/
def Verbosity.ofName? : String → Option Verbosity
  | "off" => some none
  | "error" => some (some .error)
  | "warn" => some (some .warn)
  | "info" => some (some .info)
  | "debug" => some (some .debug)
  | "trace" => some (some .trace)
  | _ => none

/-- What is shown when nothing was chosen. -/
def Verbosity.usual : Verbosity := some .error

/-- Whether records of a level are shown. -/
def Verbosity.shows (v : Verbosity) (level : Level) : Bool := v.any fun least => level.rank ≤ least.rank

/-- A record as a line, if its level is shown. -/
def Verbosity.line? (v : Verbosity) (level : Level) (message : String) : Option String :=
  if v.shows level then some (level.name ++ ": " ++ message) else none

/-- A value with the records that its making has left, in order. -/
structure Logged (ρ α : Type) where
  value : α
  records : List ρ
deriving DecidableEq, Repr

namespace Logged

variable {ρ τ α : Type}

instance : Monad (Logged ρ) where
  pure value := ⟨value, []⟩
  bind first next :=
    let second := next first.value
    ⟨second.value, first.records ++ second.records⟩

def leave (record : ρ) : Logged ρ Unit := ⟨(), [record]⟩

/-- The same value with its records taken as records of another kind. -/
def mapRecords (f : ρ → τ) (l : Logged ρ α) : Logged τ α := ⟨l.value, l.records.map f⟩

@[simp] theorem value_pure (a : α) : (pure a : Logged ρ α).value = a := rfl

@[simp] theorem value_bind {β : Type} (l : Logged ρ α) (f : α → Logged ρ β) :
    (l >>= f).value = (f l.value).value := rfl

end Logged

/-- How the figures of a record are written. What a slot's number is, and how many slots are in use,
depends on where a program was loaded, so a reader may want these blotted out. -/
structure Figures where
  slot : UInt64 → String
  slots : Nat → String
  sites : Nat → String

def Figures.exact : Figures where
  slot n := "0x" ++ Digits.hex n.toNat
  slots := Digits.decimal
  sites := Digits.decimal

/-- A record that the library leaves with `trace`, `debug` or `info`. -/
inductive Note where
  /-- A table was captured, with so many slots in use. -/
  | captured (slots : Nat)
  /-- A run was compared with a baseline, each with so many readings. -/
  | compared (alarms runSlots baselineSlots : Nat)
  /-- A run was judged by the history. -/
  | judged (interesting : Bool)
  /-- A commit has raised the history, by so many readings. -/
  | grew (sites : Nat)
deriving DecidableEq, Repr

namespace Note

def level : Note → Level
  | .captured _ => .trace
  | .compared .. => .debug
  | .judged _ => .debug
  | .grew _ => .info

def message (figures : Figures) : Note → String
  | .captured slots => "captured " ++ figures.slots slots ++ " non-empty slots"
  | .compared alarms runSlots baselineSlots =>
    Digits.decimal alarms ++ " anomalies over baseline (" ++ figures.slots runSlots ++ " slots vs "
      ++ figures.slots baselineSlots ++ " slots)"
  | .judged interesting => "run is " ++ (if interesting then "" else "not ") ++ "interesting"
  | .grew sites => figures.sites sites ++ " call sites reached a new maximum allocation size"

end Note

end HeapWatch
