import Std.Data.HashMap
import HeapWatch.Profile
/-!
# The history of a campaign: `SizeFeedback`

The largest size that every slot has shown in the runs committed so far. A run is interesting when
some reading of it is above what the history has for its slot.

* `History.news`: the readings of a profile that are above the history.
* `History.commit`: takes a profile into the history and counts the readings that raised it.
* `History.run`: a whole sequence of commits and clearings.
-/

namespace HeapWatch

/-- The largest size committed for each slot (`SizeFeedback`). -/
structure History where
  best : Std.HashMap UInt64 UInt64

namespace History

def empty : History := ⟨∅⟩

instance : Inhabited History := ⟨empty⟩

/-- The largest size committed for a slot, 0 if none was (`SizeFeedback::max_for`). -/
def sizeAt (h : History) (slot : UInt64) : UInt64 := h.best.getD slot 0

/-- How many slots are remembered (`SizeFeedback::len`). -/
def length (h : History) : Nat := h.best.size

def isEmpty (h : History) : Bool := h.best.isEmpty

/-- Whether a reading is above the history. -/
def isNew (h : History) (r : Reading) : Bool := h.sizeAt r.slot < r.size

/-- The readings of a profile that are above the history, in the profile's order
(`SizeFeedback::novelties`). -/
def news (h : History) (p : Profile) : List Reading := p.toList.filter h.isNew

/-- Whether any reading of a profile is above the history (`SizeFeedback::is_interesting`). -/
def isInteresting (h : History) (p : Profile) : Bool := p.toList.any h.isNew

/-- The history with one more reading. The slot is remembered even if the size is 0. -/
def absorb (h : History) (r : Reading) : History :=
  ⟨h.best.insert r.slot (max (h.sizeAt r.slot) r.size)⟩

/-- Takes readings into the history one by one, and counts those that were above it. -/
def absorbAll (h : History) : List Reading → Nat × History
  | [] => (0, h)
  | r :: rest =>
    let (grown, h') := (h.absorb r).absorbAll rest
    (if h.isNew r then grown + 1 else grown, h')

/-- Takes a profile into the history, and counts the readings that raised it
(`SizeFeedback::commit`). -/
def commit (h : History) (p : Profile) : Nat × History := h.absorbAll p.toList

/-- Forgets everything (`SizeFeedback::clear`). -/
def cleared (_ : History) : History := empty

/-! ## Sequences of commits -/

/-- What is done to a history. -/
inductive Step where
  | commit (p : Profile)
  | clear
deriving DecidableEq, Repr

/-- The readings that a sequence of steps commits after its last clearing, in order. -/
def Step.committed : List Step → List Reading
  | [] => []
  | .clear :: steps => committed steps
  | .commit p :: steps => if .clear ∈ steps then committed steps else p.toList ++ committed steps

def step (h : History) : Step → History
  | .commit p => (h.commit p).2
  | .clear => h.cleared

def run (h : History) (steps : List Step) : History := steps.foldl step h

/-! ## What each operation does to a slot's size -/

@[simp] theorem sizeAt_empty (slot : UInt64) : empty.sizeAt slot = 0 := by
  simp [empty, sizeAt]

theorem sizeAt_absorb (h : History) (r : Reading) (slot : UInt64) :
    (h.absorb r).sizeAt slot = if r.slot = slot then max (h.sizeAt slot) r.size else h.sizeAt slot := by
  by_cases e : r.slot = slot
  · subst e; simp [absorb, sizeAt]
  · simp [absorb, sizeAt, e, Std.HashMap.getD_insert]

theorem isInteresting_eq (h : History) (p : Profile) :
    h.isInteresting p = !(h.news p).isEmpty := by
  simp only [isInteresting, news]
  induction p.toList with
  | nil => rfl
  | cons r rest ih => by_cases hr : h.isNew r <;> simp_all

end History

end HeapWatch
