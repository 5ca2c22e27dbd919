import HeapWatch.Memory
/-!
# The two heaps: `PosixMemalign` and `Dlmalloc`

Blocks come from the system's heap, which the rest of the process can free, or from a heap of the
watcher's own. Each is an allocator with a check of the request in front of it, and the two are made
differently. The system's allocator takes any size and any alignment and answers with a status. The
own one takes layouts only, so that a size and an alignment that cannot be laid out are refused before
it is asked; and since there is no layout of 0 bytes, a request for none is passed on as one for one.

* `Layout`: a size and an alignment that a block can have.
* `StatusAllocator.source`, `LayoutAllocator.source`: a heap over an allocator of either kind.
* `Heap.source`: the two heaps over the machine's allocators.
-/

namespace HeapWatch

variable {σ : Type}

/-- Whether exactly one bit of the word is set. -/
def isPowerOfTwo (word : UInt64) : Bool := word != 0 && word &&& (word - 1) == 0

/-- A size and an alignment that a block can have: the size, rounded up to the alignment, takes less
than half of the address space. -/
structure Layout where
  size : UInt64
  align : UInt64
  isPowerOfTwo_align : isPowerOfTwo align = true
  bound : size.toNat + align.toNat ≤ 0x8000000000000000

/-- The layout of a size and an alignment, if they have one (`Layout::from_size_align`). -/
def Layout.of? (size align : UInt64) : Option Layout :=
  if h : isPowerOfTwo align = true ∧ size.toNat + align.toNat ≤ 0x8000000000000000 then
    some ⟨size, align, h.1, h.2⟩
  else none

/-- An allocator that answers with a status, and with what it has left where the address of the block
belongs (`posix_memalign`). The status is 0 if it could serve the request. -/
structure StatusAllocator (σ : Type) where
  allocate : (align size : UInt64) → σ → Int32 × Option Nat × σ

/-- An allocator that is asked for a layout and answers with the address of a block, if it has one
(`GlobalDlmalloc`). -/
structure LayoutAllocator (σ : Type) where
  allocate : Layout → σ → Option Nat × σ

/-- The heap over an allocator with a status: whatever the status is but 0, there is no block
(`PosixMemalign::alloc_aligned`). -/
def StatusAllocator.source (a : StatusAllocator σ) : Source σ where
  request size align state :=
    let (status, block, state) := a.allocate align size state
    (if status = 0 then block else none, state)

/-- The heap over an allocator for layouts, which is asked if the request has a layout
(`Dlmalloc::alloc_aligned`). -/
def LayoutAllocator.source (a : LayoutAllocator σ) : Source σ where
  request size align state :=
    match Layout.of? (max size 1) align with
    | none => (none, state)
    | some layout => a.allocate layout state

/-- A heap that blocks may come from. -/
inductive Heap where
  /-- The heap of the process, whose blocks anyone may free. -/
  | system
  /-- A heap of the watcher's own, whose blocks stay with it. -/
  | own
deriving DecidableEq, Repr

namespace Heap

/-! ## The machine's allocators -/

/-- How many bytes no single block can have: 32 gibibytes, as much as the machine has memory. -/
def room : Nat := 0x800000000

def fits (size align : UInt64) : Bool := size.toNat < room && align.toNat < 0x4000000000000000

/-- The lowest multiple of `align` at or above `address`. -/
def alignedFrom (address align : Nat) : Nat := (address + align - 1) / align * align

/-- The system's allocator. Its state is the first address above the blocks handed out so far. It wants
an alignment that is a power of two and a multiple of the word size, else its status is 22; it is 12
if there is no room. -/
def systemAllocator : StatusAllocator Nat where
  allocate align size top :=
    if isPowerOfTwo align && align % 8 == 0 then
      if fits size align then
        let block := alignedFrom top align.toNat
        (0, some block, block + size.toNat)
      else (12, none, top)
    else (22, none, top)

/-- The allocator of the own heap, with a state of the same kind. -/
def ownAllocator : LayoutAllocator Nat where
  allocate layout top :=
    if fits layout.size layout.align then
      let block := alignedFrom top layout.align.toNat
      (some block, block + layout.size.toNat)
    else (none, top)

/-- The heap as a source of memory. -/
def source : Heap → Source Nat
  | .system => systemAllocator.source
  | .own => ownAllocator.source

/-- Where the first block may start: address 0 is no block's. -/
def bottom : Nat := 4096

end Heap

end HeapWatch
