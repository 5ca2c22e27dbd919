import HeapWatch.Site
/-!
# The size table: `AllocMap`

One running maximum per slot: the largest size that any site of the slot has asked for since the
table was last cleared. A slot nobody asked from holds 0.

* `SizeTable.record`: a request from a site.
* `SizeTable.sizeAt_record`: a request raises its own slot to the maximum and leaves the others.
-/

namespace HeapWatch

/-- The largest size recorded in each slot (`AllocMap`). -/
structure SizeTable where
  sizes : Vector UInt64 slotCount

namespace SizeTable

def empty : SizeTable := ⟨Vector.replicate slotCount 0⟩

instance : Inhabited SizeTable := ⟨empty⟩

def sizeAt (t : SizeTable) (slot : Fin slotCount) : UInt64 := t.sizes[slot]

/-- The size in the slot of that number, if there is one (`AllocMap::get`). -/
def size? (t : SizeTable) (slot : UInt64) : Option UInt64 := t.sizes[slot.toNat]?

/-- The size in the slot of a site (`AllocMap::get_for`). -/
def sizeFor (t : SizeTable) (site : Site) : UInt64 := t.sizeAt site.slot

/-- A request of `size` bytes from `site`: the site's slot keeps the larger of the two sizes
(`AllocMap::observe`). -/
def record (t : SizeTable) (site : Site) (size : UInt64) : SizeTable :=
  ⟨t.sizes.set site.slot (max (t.sizeFor site) size)⟩

/-- Sets every slot back to 0 (`AllocMap::reset`). -/
def cleared (t : SizeTable) : SizeTable := ⟨t.sizes.map fun _ => 0⟩

/-- Every slot with its size, by ascending slot number, the empty ones included (`AllocMap::iter`). -/
def toList (t : SizeTable) : List (Fin slotCount × UInt64) :=
  (List.finRange slotCount).map fun slot => (slot, t.sizeAt slot)

/-- The slots that hold a size other than 0, by ascending slot number. -/
def used (t : SizeTable) : List (Fin slotCount × UInt64) :=
  t.toList.filter fun entry => entry.2 != 0

/-- The largest size in the table, 0 when nothing is recorded. -/
def largest (t : SizeTable) : UInt64 := t.sizes.foldl max 0

/-! ## What each operation does to a slot -/

@[simp] theorem sizeAt_empty (slot : Fin slotCount) : empty.sizeAt slot = 0 := by
  simp [empty, sizeAt]

@[simp] theorem sizeAt_cleared (t : SizeTable) (slot : Fin slotCount) :
    t.cleared.sizeAt slot = 0 := by
  simp [cleared, sizeAt]

theorem sizeAt_record (t : SizeTable) (site : Site) (size : UInt64) (slot : Fin slotCount) :
    (t.record site size).sizeAt slot =
      if site.slot = slot then max (t.sizeAt slot) size else t.sizeAt slot := by
  by_cases h : site.slot = slot
  · subst h; simp [record, sizeAt, sizeFor]
  · have h' : (site.slot : Nat) ≠ slot := fun e => h (Fin.ext e)
    simp [record, sizeAt, h, h']

theorem size?_eq_sizeAt (t : SizeTable) (slot : Fin slotCount) (number : UInt64)
    (h : number.toNat = slot) : t.size? number = some (t.sizeAt slot) := by
  simp [size?, sizeAt, h]

theorem size?_eq_none_iff (t : SizeTable) (number : UInt64) :
    t.size? number = none ↔ slotCount ≤ number.toNat := by
  simp [size?]

end SizeTable

end HeapWatch
