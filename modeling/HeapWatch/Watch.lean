import HeapWatch.SizeTable
import HeapWatch.Memory
/-!
# Watched allocation: `Interposer`

A watch stands in front of a source of memory: each request is first recorded in the size table
under the site that made it, and is then passed on. A request for zeroed memory is for a number of
elements of one size; the product wraps around at 2^64, and the block's bytes are set to 0 if the
source grants it. A refused request has been recorded all the same.

* `Watch.allocate`, `Watch.allocateZeroed`: the two requests.
* `Watch.run`: a whole sequence of calls.
* `Call.largestIn`: what a slot holds after the calls, said without a table.
-/

namespace HeapWatch

/-- What a watched request works on: the table, the memory and the state of the source
(`Interposer`). -/
structure Watch (σ : Type) where
  table : SizeTable
  memory : Memory
  source : σ

/-- Every block is requested with this alignment (`REAL_ALIGN`). -/
def blockAlignment : UInt64 := 64

/-- Bytes in `count` elements of `size` bytes, modulo 2^64. -/
def totalSize (count size : UInt64) : UInt64 := count * size

namespace Watch

variable {σ : Type}

/-- Records that `site` asked for `size` bytes, and asks for nothing. -/
def observe (w : Watch σ) (site : Site) (size : UInt64) : Watch σ :=
  { w with table := w.table.record site size }

/-- A request of `size` bytes from `site` (`Interposer::allocate`). The block's bytes are whatever they
were. -/
def allocate (source : Source σ) (w : Watch σ) (size : UInt64) (site : Site) :
    Option Nat × Watch σ :=
  let w := w.observe site size
  let (block, state) := source.request size blockAlignment w.source
  (block, { w with source := state })

/-- A request of `count` zeroed elements of `size` bytes from `site`
(`Interposer::allocate_zeroed`). Nothing is written when the source refuses. -/
def allocateZeroed (source : Source σ) (w : Watch σ) (count size : UInt64) (site : Site) :
    Option Nat × Watch σ :=
  let total := totalSize count size
  match w.allocate source total site with
  | (none, w) => (none, w)
  | (some block, w) => (some block, { w with memory := w.memory.zeroed block total.toNat })

def reset (w : Watch σ) : Watch σ := { w with table := w.table.cleared }

end Watch

/-! ## Sequences of calls -/

/-- One call on a watch. -/
inductive Call where
  | observe (site : Site) (size : UInt64)
  | allocate (size : UInt64) (site : Site)
  | allocateZeroed (count size : UInt64) (site : Site)
  | reset
deriving DecidableEq, Repr

namespace Call

/-- The site and the size that a call records, if it records any. -/
def recorded? : Call → Option (Site × UInt64)
  | .observe site size => some (site, size)
  | .allocate size site => some (site, size)
  | .allocateZeroed count size site => some (site, totalSize count size)
  | .reset => none

/-- The sizes that a sequence of calls asks for, with their sites, since its last reset. -/
def sinceReset : List Call → List (Site × UInt64)
  | [] => []
  | call :: calls =>
    if .reset ∈ calls then sinceReset calls
    else call.recorded?.toList ++ sinceReset calls

/-- The largest size that a slot's sites ask for in a sequence of calls after its last reset, 0 if
they ask for nothing. -/
def largestIn (calls : List Call) (slot : Fin slotCount) : UInt64 :=
  (((sinceReset calls).filter fun request => request.1.slot = slot).map Prod.snd).foldr max 0

end Call

namespace Watch

variable {σ : Type}

/-- One call: its block, if it asked for one and got it, and the watch afterwards. -/
def step (source : Source σ) (w : Watch σ) : Call → Option Nat × Watch σ
  | .observe site size => (none, w.observe site size)
  | .allocate size site => w.allocate source size site
  | .allocateZeroed count size site => w.allocateZeroed source count size site
  | .reset => (none, w.reset)

/-- The watch after a sequence of calls. -/
def run (source : Source σ) (w : Watch σ) (calls : List Call) : Watch σ :=
  calls.foldl (fun w call => (w.step source call).2) w

/-- What each of the calls in a sequence was answered. -/
def blocks (source : Source σ) (w : Watch σ) : List Call → List (Option Nat)
  | [] => []
  | call :: calls =>
    let (block, w) := w.step source call
    block :: w.blocks source calls

/-! ## What the calls do to the table -/

@[simp] theorem table_allocate (source : Source σ) (w : Watch σ) (size : UInt64) (site : Site) :
    (w.allocate source size site).2.table = w.table.record site size := rfl

@[simp] theorem table_allocateZeroed (source : Source σ) (w : Watch σ) (count size : UInt64)
    (site : Site) :
    (w.allocateZeroed source count size site).2.table =
      w.table.record site (totalSize count size) := by
  simp only [allocateZeroed]
  split <;> rename_i h <;> simp [← table_allocate source w, h]

/-- Every call's effect on the table is one recording, or none for a reset, which clears it. -/
theorem table_step (source : Source σ) (w : Watch σ) (call : Call) :
    (w.step source call).2.table =
      match call.recorded? with
      | some (site, size) => w.table.record site size
      | none => w.table.cleared := by
  cases call <;> simp [step, Call.recorded?, observe, reset]

end Watch

end HeapWatch
