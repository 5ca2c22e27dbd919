/-!
# Live hook bodies: `Nesting`

A hook that asks for memory while it serves a request would call itself. The detector counts the
bodies that are live and keeps the largest count it has seen: more than 1 means that a hook was
re-entered. A live body takes up room on the thread's stack, so there are never so many that a count
would leave its word.
-/

namespace HeapWatch

/-- How many hook bodies are live (`DEPTH`), and the most that ever were (`MAX_DEPTH`). -/
structure Nesting where
  depth : Nat := 0
  deepest : Nat := 0
deriving DecidableEq, Repr

namespace Nesting

/-- A body starts (`Nesting::enter`). -/
def enter (n : Nesting) : Nesting := ⟨n.depth + 1, max n.deepest (n.depth + 1)⟩

/-- A body ends, which drops its guard. -/
def leave (n : Nesting) : Nesting := ⟨n.depth - 1, n.deepest⟩

inductive Mark where
  | enter
  | leave
deriving DecidableEq, Repr

def step (n : Nesting) : Mark → Nesting
  | .enter => n.enter
  | .leave => n.leave

def run (n : Nesting) (marks : List Mark) : Nesting := marks.foldl step n

/-- The number of bodies that are live after a sequence of starts and ends, counted as starts less
ends. -/
def live (marks : List Mark) : Int := (marks.count .enter : Int) - marks.count .leave

/-- The most bodies that are live at any moment of a sequence. -/
def mostLive (marks : List Mark) : Int :=
  ((List.range (marks.length + 1)).map fun k => live (marks.take k)).foldr max 0

/-- A sequence in which no body ends before it has started. -/
def WellNested (marks : List Mark) : Prop := ∀ early, early <+: marks → 0 ≤ live early

end Nesting

end HeapWatch
