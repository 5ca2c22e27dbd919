/-!
# When growth is worth an alarm: `AnomalyPolicy`

A slot's observed size is alarming when it is large enough to matter, above the baseline, and, where
the baseline has a size at all, more than so many times that size. A product beyond 64 bits can be
exceeded by no size, so it never raises an alarm.
-/

namespace HeapWatch

/-- The limits that a slot's size has to pass to raise an alarm (`AnomalyPolicy`). -/
structure Threshold where
  /-- Sizes below this one are never alarming. -/
  leastSize : UInt64 := 1048576
  /-- A slot with a baseline has to grow beyond this many times it. -/
  growthFactor : UInt64 := 4
deriving DecidableEq, Repr

/-- The product of two words, if it is one (`checked_mul`). -/
def product? (a b : UInt64) : Option UInt64 :=
  if a.toNat * b.toNat < UInt64.size then some (a * b) else none

theorem product?_eq_some_iff {a b c : UInt64} :
    product? a b = some c ↔ a.toNat * b.toNat = c.toNat := by
  unfold product?
  split
  · rename_i h
    rw [Option.some.injEq, ← UInt64.toNat_inj, UInt64.toNat_mul, Nat.mod_eq_of_lt h]
  · rename_i h
    have := c.toNat_lt_size
    constructor
    · simp
    · intro e; omega

/-- Whether the observed size is alarming over the baseline (`AnomalyPolicy::is_anomalous`). -/
def Threshold.isExceeded (t : Threshold) (baseline observed : UInt64) : Bool :=
  if observed < t.leastSize || observed ≤ baseline then false
  else baseline == 0 || (product? baseline t.growthFactor).any (· < observed)

end HeapWatch
