/-!
# Call sites and their slots: `call_site_index`

A call site is the address that memory was requested from. Sites are hashed into a fixed number of
slots, so that a table of one size per slot can be kept without allocating. The hash is cheap and
many sites share a slot: only the low 18 bits of the address matter.

* `Site.slot`: the slot of a site, always below `slotCount`.
-/

namespace HeapWatch

/-- Number of slots of a size table (`MAP_SIZE`). It is a power of two, so a slot number is a bit mask
away from any word. -/
def slotCount : Nat := 16384

/-- An address that memory was requested from. -/
structure Site where
  address : UInt64
deriving DecidableEq, Repr

namespace Site

/-- The address moved four bits down, mixed with itself moved eight bits up. The bits moved out at
either end are lost. -/
def key (site : Site) : UInt64 := (site.address >>> 4) ^^^ (site.address <<< 8)

/-- The low 14 bits of the key. -/
def slotNumber (site : Site) : UInt64 := site.key &&& 16383

theorem slotNumber_lt (site : Site) : site.slotNumber.toNat < slotCount := by
  have h : site.slotNumber.toNat = site.key.toNat &&& 16383 := by
    simp [slotNumber]
  rw [h]
  exact Nat.lt_of_le_of_lt Nat.and_le_right (by decide)

/-- The slot that a site's requests are recorded in (`call_site_index`). -/
def slot (site : Site) : Fin slotCount := ⟨site.slotNumber.toNat, site.slotNumber_lt⟩

end Site

end HeapWatch
