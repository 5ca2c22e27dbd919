import HeapWatch.SizeTable
/-!
# Profiles: `MapSnapshot`

A profile lists the sizes that slots held at one moment. The profiles that the library makes itself
are *canonical*: ascending by slot, each slot once, no size 0. A profile that was read from a text
may list anything, in any order, until it is put into that form.

* `Profile.capture`: the profile of a size table.
* `Profile.ofReadings`: the canonical profile of any readings. Of several readings of one slot the
  largest stands.
* `Profile.sizeAt`: the size that a canonical profile has for a slot, found by bisection.
* `Profile.largest?`: the last among the largest readings.
-/

namespace HeapWatch

/-- The size that one slot held (`SlotSize`). -/
structure Reading where
  slot : UInt64
  size : UInt64
deriving DecidableEq, Repr

/-- The sizes that slots held at one moment (`MapSnapshot`). -/
structure Profile where
  readings : Array Reading
deriving DecidableEq, Repr

namespace Reading

/-- The order by slot, and within a slot by size. -/
def le (a b : Reading) : Bool := a.slot < b.slot || (a.slot == b.slot && a.size ≤ b.size)

/-- The largest size that the readings list for a slot, 0 if they list none. -/
def largestFor (readings : List Reading) (slot : UInt64) : UInt64 :=
  readings.foldr (fun r best => if r.slot = slot then max r.size best else best) 0

/-- The readings behind one of `slot`, without those that have the slot of the one before. -/
def othersAfter (slot : UInt64) : List Reading → List Reading
  | [] => []
  | r :: rest => if r.slot = slot then othersAfter slot rest else r :: othersAfter r.slot rest

/-- Of neighbours with one slot only the first is kept (`dedup_by_key`). -/
def firstOfEach : List Reading → List Reading
  | [] => []
  | r :: rest => r :: othersAfter r.slot rest

end Reading

namespace Profile

def empty : Profile := ⟨#[]⟩

instance : Inhabited Profile := ⟨empty⟩

/-- The readings in the profile's own order. -/
def toList (p : Profile) : List Reading := p.readings.toList

/-- The profile of readings that are already in order. -/
def ofList (readings : List Reading) : Profile := ⟨readings.toArray⟩

@[simp] theorem toList_ofList (readings : List Reading) : (ofList readings).toList = readings := by
  simp [ofList, toList]

@[simp] theorem ofList_toList (p : Profile) : ofList p.toList = p := by
  simp [ofList, toList]

def length (p : Profile) : Nat := p.readings.size

def isEmpty (p : Profile) : Bool := p.readings.isEmpty

/-- Ascending by slot, each slot once, and no size 0. -/
def Canonical (p : Profile) : Prop :=
  p.toList.Pairwise (fun a b => a.slot < b.slot) ∧ ∀ r ∈ p.toList, r.size ≠ 0

instance (p : Profile) : Decidable p.Canonical := inferInstanceAs (Decidable (_ ∧ _))

/-! ## Making profiles -/

/-- The slots of a table that hold a size, by ascending slot (`MapSnapshot::capture`). -/
def capture (t : SizeTable) : Profile :=
  ofList (t.used.map fun (slot, size) => ⟨slot.val.toUInt64, size⟩)

/-- The canonical profile of any readings (`MapSnapshot::from_slots`): sizes of 0 are dropped, and each
slot keeps its largest size. After sorting, that is the last of the slot's readings, and the first of
them from behind. -/
def ofReadings (readings : List Reading) : Profile :=
  let sorted := (readings.filter (·.size != 0)).mergeSort Reading.le
  ofList (Reading.firstOfEach sorted.reverse).reverse

/-! ## Reading profiles -/

/-- The size of `slot` among the readings numbered `low` to `high - 1`, 0 if it is not there. The
range is halved until it is empty. -/
def sizeBetween (readings : Array Reading) (slot : UInt64) (low high : Nat)
    (bound : high ≤ readings.size) : UInt64 :=
  if h : low < high then
    let middle := (low + high) / 2
    let r := readings[middle]
    if r.slot = slot then r.size
    else if r.slot < slot then sizeBetween readings slot (middle + 1) high bound
    else sizeBetween readings slot low middle (by omega)
  else 0
termination_by high - low

/-- The size that a canonical profile has for a slot, 0 if it has none (`MapSnapshot::get`). -/
def sizeAt (p : Profile) (slot : UInt64) : UInt64 :=
  sizeBetween p.readings slot 0 p.readings.size (Nat.le_refl _)

/-- The last among the readings of largest size, if there are any (`MapSnapshot::max_size`). -/
def largest? (p : Profile) : Option Reading :=
  p.toList.foldl (fun best r =>
    match best with
    | some b => if b.size ≤ r.size then some r else some b
    | none => some r) none

end Profile

end HeapWatch
