import HeapWatch.Profile.Alarm
import HeapWatch.Digits
/-!
# Reports

A report has one line for each alarm: the slot in hexadecimal with four digits or more, and the two
sizes in decimal. The three numbers can be read back from the line.

* `Alarm.line`, `Alarm.ofLine?`.
-/

namespace HeapWatch.Alarm

/-- The line of an alarm, as `compare_snapshots` prints it. -/
def line (a : Alarm) : String :=
  "slot 0x" ++ Digits.hexPadded 4 a.slot.toNat ++ ": " ++ Digits.decimal a.baseline.toNat ++ " -> "
    ++ Digits.decimal a.observed.toNat ++ " bytes"

/-- What follows a text at the front of another. -/
def stripped? : List Char → List Char → Option (List Char)
  | [], chars => some chars
  | _ :: _, [] => none
  | c :: text, d :: chars => if c = d then stripped? text chars else none

/-- The alarm of a line. -/
def ofLine? (line : String) : Option Alarm := do
  let chars ← stripped? "slot 0x".toList line.toList
  let (slot, chars) ← Digits.take? 16 chars
  let chars ← stripped? ": ".toList chars
  let (baseline, chars) ← Digits.take? 10 chars
  let chars ← stripped? " -> ".toList chars
  let (observed, chars) ← Digits.take? 10 chars
  if chars = " bytes".toList then
    some ⟨slot.toUInt64, baseline.toUInt64, observed.toUInt64⟩
  else none

end HeapWatch.Alarm
