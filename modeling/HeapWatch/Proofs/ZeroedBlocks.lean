import HeapWatch.Watch
/-!
# A request for zeroed memory

The number of elements and their size are multiplied once, modulo 2^64, and the product is what is
recorded, what is asked of the source, and how many bytes are set to 0 if the source grants a block.
A source that keeps the requests made of it shows that there is one and no more.
-/

namespace HeapWatch

variable {σ : Type}

/-- What is asked of a source: a size and an alignment. -/
abbrev Request := UInt64 × UInt64

/-- A source that answers as another does, and keeps the requests made of it. -/
def Source.noting (source : Source σ) : Source (σ × List Request) where
  request size align state :=
    let (block, next) := source.request size align state.1
    (block, next, state.2 ++ [(size, align)])

namespace Watch

/-- The watch over the source that keeps the requests made of it, and has kept none so far. -/
def noting (w : Watch σ) : Watch (σ × List Request) := ⟨w.table, w.memory, w.source, []⟩

/-! ## The requests and their answers -/

theorem allocate_eq (source : Source σ) (w : Watch σ) (size : UInt64) (site : Site) :
    w.allocate source size site =
      ((source.request size 64 w.source).1,
        ⟨w.table.record site size, w.memory, (source.request size 64 w.source).2⟩) := rfl

/-- **The answer and the watch after a request for zeroed memory.** -/
theorem allocateZeroed_eq (source : Source σ) (w : Watch σ) (count size : UInt64) (site : Site) :
    w.allocateZeroed source count size site =
      let total := totalSize count size
      let (block, next) := source.request total 64 w.source
      (block, ⟨w.table.record site total,
        block.elim w.memory fun start => w.memory.zeroed start total.toNat, next⟩) := by
  rw [allocateZeroed, allocate_eq]
  dsimp only
  cases (source.request (totalSize count size) 64 w.source).1 <;> rfl

theorem allocate_noting (source : Source σ) (w : Watch σ) (size : UInt64) (site : Site) :
    w.noting.allocate source.noting size site =
      let (block, after) := w.allocate source size site
      (block, ⟨after.table, after.memory, after.source, [(size, 64)]⟩) := rfl

theorem allocateZeroed_noting (source : Source σ) (w : Watch σ) (count size : UInt64)
    (site : Site) :
    w.noting.allocateZeroed source.noting count size site =
      let (block, after) := w.allocateZeroed source count size site
      (block, ⟨after.table, after.memory, after.source, [(totalSize count size, 64)]⟩) := by
  rw [allocateZeroed_eq, allocateZeroed_eq]
  rfl

/-! ## The whole -/

/-- **A request for zeroed memory uses the product throughout.** Whatever the source, one request is
made of it, for the product modulo 2^64 at the alignment of 64, and its answer is passed on. If it is
a block, the first bytes of the block, as many as the product says, are 0 afterwards and every other
byte is what it was; so if the block has at least the bytes that were asked for, nothing outside the
block is touched. If it is a refusal, the memory is what it was. Either way the slot of the site holds
the larger of its size and the product, and every other slot is what it was. But for the memory, all
of this is what a plain request for the product does. -/
theorem allocateZeroed_uses_total (source : Source σ) (w : Watch σ) (count size : UInt64)
    (site : Site) :
    let total := totalSize count size
    let answer := (w.allocateZeroed source count size site).1
    let after := (w.allocateZeroed source count size site).2
    let noted := w.noting.allocateZeroed source.noting count size site
    total.toNat = count.toNat * size.toNat % UInt64.size ∧
    (answer, after.source) = source.request total 64 w.source ∧
    noted = (answer, ⟨after.table, after.memory, after.source, [(total, 64)]⟩) ∧
    (∀ block, answer = some block →
      (∀ address, after.memory.byteAt address =
        if block ≤ address ∧ address < block + total.toNat then 0 else w.memory.byteAt address) ∧
      ∀ length, total.toNat ≤ length → ∀ address, ¬ Span.contains ⟨block, length⟩ address →
        after.memory.byteAt address = w.memory.byteAt address) ∧
    (answer = none → after.memory = w.memory) ∧
    (∀ slot, after.table.sizeAt slot =
      if site.slot = slot then max (w.table.sizeAt slot) total else w.table.sizeAt slot) ∧
    w.allocate source total site = (answer, { after with memory := w.memory }) ∧
    w.noting.allocate source.noting total site = (answer, { noted.2 with memory := w.memory }) := by
  intro total answer after noted
  have whole := allocateZeroed_eq source w count size site
  have memory : after.memory =
      answer.elim w.memory fun start => w.memory.zeroed start total.toNat := by
    simp only [answer, after, whole]
    rfl
  have plain : w.allocate source total site = (answer, { after with memory := w.memory }) := by
    simp only [answer, after, whole, allocate_eq]
    rfl
  have kept : noted = (answer, ⟨after.table, after.memory, after.source, [(total, 64)]⟩) :=
    allocateZeroed_noting source w count size site
  refine ⟨UInt64.toNat_mul count size, ?_, kept, ?_, ?_, ?_, plain, ?_⟩
  · simp only [answer, after, whole]
    rfl
  · intro block hblock
    have bytes : ∀ address, after.memory.byteAt address =
        if block ≤ address ∧ address < block + total.toNat then 0
        else w.memory.byteAt address := by
      intro address
      rw [memory, hblock]
      exact w.memory.byteAt_zeroed block total.toNat address
    refine ⟨bytes, fun length hlength address outside => ?_⟩
    rw [Span.contains_iff] at outside
    rw [bytes, if_neg]
    rintro ⟨above, below⟩
    exact outside ⟨above, Nat.lt_of_lt_of_le below (Nat.add_le_add_left hlength block)⟩
  · intro refused
    rw [memory, refused]
    rfl
  · intro slot
    rw [show after.table = w.table.record site total from
      table_allocateZeroed source w count size site]
    exact SizeTable.sizeAt_record w.table site total slot
  · rw [allocate_noting, plain, kept]

/-- Elements whose product wraps around to 10, from a source that grants one block and then refuses:
the block's first 10 bytes are set to 0 and the bytes beside them are not, then nothing is. -/
theorem allocateZeroed_uses_total_wrapped :
    let once : Source Bool := ⟨fun _ _ granted => (if granted then none else some 100, true)⟩
    let w : Watch Bool := ⟨.empty, .filled 0xAA, false⟩
    let first := w.allocateZeroed once 0x8000000000000005 2 ⟨0x1000⟩
    let second := first.2.allocateZeroed once 0x8000000000000000 2 ⟨0x1000⟩
    (first.1 = some 100 ∧ first.2.memory.byteAt 99 = 0xAA ∧ first.2.memory.byteAt 100 = 0 ∧
      first.2.memory.byteAt 109 = 0 ∧ first.2.memory.byteAt 110 = 0xAA) ∧
    second.1 = none ∧ second.2.memory = first.2.memory ∧ second.2.table.sizeFor ⟨0x1000⟩ = 10 := by
  intro once w first second
  obtain ⟨-, -, -, granted, -, recorded, -⟩ :=
    allocateZeroed_uses_total once w 0x8000000000000005 2 ⟨0x1000⟩
  obtain ⟨-, -, -, -, refused, recorded', -⟩ :=
    allocateZeroed_uses_total once first.2 0x8000000000000000 2 ⟨0x1000⟩
  have bytes := (granted 100 rfl).1
  refine ⟨⟨rfl, ?_, ?_, ?_, ?_⟩, rfl, refused rfl, ?_⟩
  · exact (bytes 99).trans (by decide +kernel)
  · exact (bytes 100).trans (by decide +kernel)
  · exact (bytes 109).trans (by decide +kernel)
  · exact (bytes 110).trans (by decide +kernel)
  · rw [SizeTable.sizeFor, recorded', recorded]
    simp only [w, SizeTable.sizeAt_empty]
    decide +kernel

end Watch

end HeapWatch
