import HeapWatch.Watch
import HeapWatch.Heap
import HeapWatch.Nesting
/-!
# The watched program: `ALLOC_SIZE_MAP` and `HOOKS`

One size table for the whole program, in front of the system's heap, with the detector of re-entered
hooks around every request. A program that has reached its first statement has allocated before.
-/

namespace HeapWatch

/-- The state of a program whose allocations are watched. -/
structure Program where
  watch : Watch Nat
  nesting : Nesting

namespace Program

/-- The body of a hook, with the detector around it: the detector is told when the body starts and when
it ends. Whatever the body does falls between the two, other hooks included. -/
def hooked (p : Program) (body : Program → Option Nat × Program) : Option Nat × Program :=
  let (block, p) := body { p with nesting := p.nesting.enter }
  (block, { p with nesting := p.nesting.leave })

/-- A request made of the watch, which leaves the detector alone. -/
def watched (request : Watch Nat → Option Nat × Watch Nat) (p : Program) : Option Nat × Program :=
  let (block, watch) := request p.watch
  (block, { p with watch })

/-- A request of `size` bytes from `site` (`allocmap_malloc`). -/
def allocate (p : Program) (size : UInt64) (site : Site) : Option Nat × Program :=
  p.hooked (watched fun w => w.allocate Heap.system.source size site)

/-- A request of `count` zeroed elements of `size` bytes from `site` (`allocmap_calloc`). -/
def allocateZeroed (p : Program) (count size : UInt64) (site : Site) :
    Option Nat × Program :=
  p.hooked (watched fun w => w.allocateZeroed Heap.system.source count size site)

/-- Sets the table back to 0 (`allocmap_map_reset`). The detector keeps what it has seen. -/
def reset (p : Program) : Program := { p with watch := p.watch.reset }

/-- A program in which nothing was ever requested. Its memory holds no zeros that a hook could
take credit for. -/
def fresh : Program := ⟨⟨.empty, .filled 0xCC, Heap.bottom⟩, {}⟩

/-- A program at its first statement: the set-up before it has asked for memory, one request at a
time. -/
def started : Program := (fresh.allocate 1 ⟨0⟩).2

/-- The most bodies that were ever live (`max_hook_nesting`). -/
def deepestNesting (p : Program) : Nat := p.nesting.deepest

end Program

end HeapWatch
