import HeapWatch.Memory
/-!
# An arena that remembers what it was asked for

A source with one block, handed out for every request up to a limit. It keeps the requests made of
it, so that a caller can see what reached the source behind a hook.
-/

namespace HeapWatch

/-- One block for every request of at most `limit` bytes, and the requests so far. -/
structure Arena where
  limit : UInt64
  asked : List (UInt64 × UInt64) := []
deriving DecidableEq, Repr

namespace Arena

def length : Nat := 65536

def start : Nat := 65536

/-- The byte that fills the block before it is handed out. -/
def filler : UInt8 := 0xAA

/-- The arena as a source of memory: a request is remembered, then granted up to the limit. -/
def source : Source Arena where
  request size align arena :=
    (if arena.limit < size then none else some start,
      { arena with asked := arena.asked ++ [(size, align)] })

end Arena

end HeapWatch
