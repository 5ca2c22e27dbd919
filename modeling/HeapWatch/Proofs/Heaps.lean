import HeapWatch.Heap
import HeapWatch.Proofs.Recorded
import HeapWatch.Proofs.ZeroedBlocks
/-!
# One heap in place of the other

The two heaps check a request differently: one leaves that to its allocator and looks at the status,
the other asks its allocator only for what can be laid out. Of the allocators it is relied on what they
do with a small size, a huge size and the alignment; nothing is known of the sizes between. Then the
heaps differ only in the alignments below the word size, which the system refuses. The hooks ask for
none of these, so either heap can stand behind them.
-/

namespace HeapWatch

variable {σ τ : Type}

/-! ## Alignments -/

theorem isPowerOfTwo_iff {word : UInt64} : isPowerOfTwo word = true ↔ word.toNat.isPowerOfTwo := by
  by_cases hz : word = 0
  · subst hz
    have none : ¬ (0 : UInt64).toNat.isPowerOfTwo := by
      rintro ⟨k, hk⟩
      exact absurd hk.symm (Nat.ne_of_gt (Nat.two_pow_pos k))
    simp only [none, iff_false]
    decide
  · have pos : word.toNat ≠ 0 := fun h => hz (UInt64.toNat_inj.1 h)
    have one : 1 ≤ word := UInt64.le_iff_toNat_le.2 (Nat.one_le_iff_ne_zero.2 pos)
    have bits : isPowerOfTwo word = true ↔ word.toNat &&& (word.toNat - 1) = 0 := by
      simp [isPowerOfTwo, hz, ← UInt64.toNat_inj, UInt64.toNat_sub_of_le _ _ one]
    rw [bits]
    exact Nat.and_sub_one_eq_zero_iff_isPowerOfTwo pos

theorem isPowerOfTwo_and_mod_ne_iff {align : UInt64} :
    isPowerOfTwo align = true ∧ align % 8 ≠ 0 ↔ align = 1 ∨ align = 2 ∨ align = 4 := by
  constructor
  · rintro ⟨hp, hm⟩
    obtain ⟨k, hk⟩ := isPowerOfTwo_iff.1 hp
    have few : k < 3 := by
      refine Nat.lt_of_not_le fun hge => hm (UInt64.toNat_inj.1 ?_)
      have dvd : 2 ^ 3 ∣ align.toNat := hk ▸ Nat.pow_dvd_pow 2 hge
      rw [UInt64.toNat_mod]
      exact Nat.mod_eq_zero_of_dvd dvd
    have each : k = 0 ∨ k = 1 ∨ k = 2 := by omega
    rcases each with rfl | rfl | rfl
    · exact Or.inl (UInt64.toNat_inj.1 hk)
    · exact Or.inr (Or.inl (UInt64.toNat_inj.1 hk))
    · exact Or.inr (Or.inr (UInt64.toNat_inj.1 hk))
  · rintro (rfl | rfl | rfl) <;> decide

/-! ## What is relied on -/

namespace Heap

/-- A size that either allocator has room for: at most 2^20. -/
def IsSmall (size : UInt64) : Prop := size ≤ 0x100000

/-- A size that neither has room for: 2^48 or more. -/
def IsHuge (size : UInt64) : Prop := 0x1000000000000 ≤ size

/-- An alignment that neither can serve: 2^62 or more. -/
def TooCoarse (align : UInt64) : Prop := 0x4000000000000000 ≤ align

instance (size : UInt64) : Decidable (IsSmall size) := inferInstanceAs (Decidable (_ ≤ _))

instance (size : UInt64) : Decidable (IsHuge size) := inferInstanceAs (Decidable (_ ≤ _))

instance (align : UInt64) : Decidable (TooCoarse align) := inferInstanceAs (Decidable (_ ≤ _))

theorem not_small_of_huge {size : UInt64} (h : IsHuge size) : ¬ IsSmall size := fun hs =>
  absurd (UInt64.le_trans h hs) (by decide)

/-- A request for nothing, made one for one byte, stays as small or as huge as it was. -/
theorem small_max_one_iff {size : UInt64} : IsSmall (max size 1) ↔ IsSmall size :=
  Std.max_le_iff.trans (and_iff_left (by decide))

theorem huge_max_one_iff {size : UInt64} : IsHuge (max size 1) ↔ IsHuge size := by
  unfold IsHuge
  rw [← UInt64.not_lt, ← UInt64.not_lt, word_max_lt_iff, and_iff_left (by decide)]

end Heap

open Heap

/-- What is relied on of an allocator with a status, in whatever state: it refuses an alignment that is
no power of two or no multiple of the word size, a huge size and an alignment that is too coarse. It
grants every other request for a small size. -/
structure StatusAllocator.Conforms (a : StatusAllocator σ) : Prop where
  refuses : ∀ align size state,
    ¬ (isPowerOfTwo align = true ∧ align % 8 = 0) ∨ IsHuge size ∨ TooCoarse align →
      (a.allocate align size state).1 ≠ 0
  grants : ∀ align size state, isPowerOfTwo align = true → align % 8 = 0 → ¬ TooCoarse align →
    IsSmall size → (a.allocate align size state).1 = 0 ∧ (a.allocate align size state).2.1.isSome

/-- What is relied on of an allocator for layouts: it refuses a huge size and an alignment that is too
coarse, and grants every other layout of a small size. -/
structure LayoutAllocator.Conforms (a : LayoutAllocator σ) : Prop where
  refuses : ∀ layout state, IsHuge layout.size ∨ TooCoarse layout.align →
    (a.allocate layout state).1 = none
  grants : ∀ layout state, ¬ TooCoarse layout.align → IsSmall layout.size →
    (a.allocate layout state).1.isSome

/-! The allocators of the machine are so. -/

namespace Heap

theorem fits_eq_false {size align : UInt64} (h : IsHuge size ∨ TooCoarse align) :
    fits size align = false := by
  simp only [IsHuge, TooCoarse, UInt64.le_iff_toNat_le, UInt64.reduceToNat] at h
  simp only [fits, Bool.and_eq_false_iff, decide_eq_false_iff_not]
  unfold room
  omega

theorem fits_eq_true {size align : UInt64} (hs : IsSmall size) (hc : ¬ TooCoarse align) :
    fits size align = true := by
  simp only [IsSmall, TooCoarse, UInt64.le_iff_toNat_le, UInt64.reduceToNat] at hs hc
  simp only [fits, Bool.and_eq_true, decide_eq_true_eq]
  unfold room
  omega

theorem conforms_systemAllocator : systemAllocator.Conforms where
  refuses align size state h := by
    by_cases served : isPowerOfTwo align = true ∧ align % 8 = 0
    · have fault : IsHuge size ∨ TooCoarse align := h.resolve_left (not_not_intro served)
      simp [systemAllocator, served, fits_eq_false fault]
    · rw [Classical.not_and_iff_not_or_not] at served
      rcases served with hp | hm
      · simp [systemAllocator, hp]
      · simp [systemAllocator, hm]
  grants align size state hp hm hc hs := by
    simp [systemAllocator, hp, hm, fits_eq_true hs hc]

theorem conforms_ownAllocator : ownAllocator.Conforms where
  refuses layout state h := by
    simp [ownAllocator, fits_eq_false h]
  grants layout state hc hs := by
    simp [ownAllocator, fits_eq_true hs hc]

end Heap

/-! ## What either heap grants -/

theorem Layout.of?_eq_some_iff {size align : UInt64} {layout : Layout} :
    Layout.of? size align = some layout ↔ layout.size = size ∧ layout.align = align := by
  unfold Layout.of?
  constructor
  · intro h
    split at h
    · cases h
      exact ⟨rfl, rfl⟩
    · cases h
  · rintro ⟨rfl, rfl⟩
    rw [dif_pos ⟨layout.isPowerOfTwo_align, layout.bound⟩]

/-- No size short of a huge one and no alignment short of one that is too coarse is refused a layout, if
the alignment is a power of two. -/
theorem Layout.exists_of? {size align : UInt64} (hp : isPowerOfTwo align = true)
    (hs : ¬ IsHuge size) (hc : ¬ TooCoarse align) :
    ∃ layout, Layout.of? (max size 1) align = some layout := by
  have below : (max size 1).toNat < 0x1000000000000 :=
    UInt64.lt_iff_toNat_lt.1 (UInt64.not_le.1 (mt huge_max_one_iff.1 hs))
  have fine : align.toNat < 0x4000000000000000 := UInt64.lt_iff_toNat_lt.1 (UInt64.not_le.1 hc)
  exact ⟨⟨max size 1, align, hp, by omega⟩, Layout.of?_eq_some_iff.2 ⟨rfl, rfl⟩⟩

section Requests

variable {system : StatusAllocator σ} {own : LayoutAllocator τ} {size align : UInt64}

theorem StatusAllocator.request_eq (size align : UInt64) (state : σ) :
    (system.source.request size align state).1 =
      if (system.allocate align size state).1 = 0 then (system.allocate align size state).2.1
      else none := rfl

/-- What the system grants has none of the faults that its allocator refuses, whatever the size. -/
theorem StatusAllocator.Conforms.sound_of_granted (h : system.Conforms) {state : σ}
    (granted : (system.source.request size align state).1.isSome) :
    (isPowerOfTwo align = true ∧ align % 8 = 0) ∧ ¬ IsHuge size ∧ ¬ TooCoarse align := by
  have status : (system.allocate align size state).1 = 0 := by
    by_contra hne
    rw [StatusAllocator.request_eq, if_neg hne] at granted
    cases granted
  have sound : ¬ (¬ (isPowerOfTwo align = true ∧ align % 8 = 0) ∨ IsHuge size ∨ TooCoarse align) :=
    fun fault => h.refuses align size state fault status
  rwa [not_or, not_or, not_not] at sound

theorem StatusAllocator.Conforms.request_isSome_iff (h : system.Conforms)
    (hsize : IsSmall size ∨ IsHuge size) (state : σ) :
    (system.source.request size align state).1.isSome ↔
      (isPowerOfTwo align = true ∧ align % 8 = 0) ∧ ¬ TooCoarse align ∧ IsSmall size := by
  constructor
  · intro granted
    obtain ⟨served, notHuge, fine⟩ := h.sound_of_granted granted
    exact ⟨served, fine, hsize.resolve_right notHuge⟩
  · rintro ⟨⟨hp, hm⟩, hc, hs⟩
    obtain ⟨status, block⟩ := h.grants align size state hp hm hc hs
    rwa [StatusAllocator.request_eq, if_pos status]

theorem LayoutAllocator.request_eq (size align : UInt64) (state : τ) :
    (own.source.request size align state).1 =
      (Layout.of? (max size 1) align).bind fun layout => (own.allocate layout state).1 := by
  simp only [LayoutAllocator.source]
  cases Layout.of? (max size 1) align <;> rfl

theorem LayoutAllocator.Conforms.request_isSome_iff (h : own.Conforms)
    (hsize : IsSmall size ∨ IsHuge size) (state : τ) :
    (own.source.request size align state).1.isSome ↔
      isPowerOfTwo align = true ∧ ¬ TooCoarse align ∧ IsSmall size := by
  rw [LayoutAllocator.request_eq]
  constructor
  · intro granted
    cases hl : Layout.of? (max size 1) align with
    | none =>
      rw [hl] at granted
      cases granted
    | some layout =>
      have block : (own.allocate layout state).1.isSome := by rwa [hl] at granted
      obtain ⟨hs, ha⟩ := Layout.of?_eq_some_iff.1 hl
      have sound : ¬ (IsHuge layout.size ∨ TooCoarse layout.align) := by
        intro fault
        rw [h.refuses layout state fault] at block
        cases block
      rw [not_or, hs, ha, huge_max_one_iff] at sound
      exact ⟨ha ▸ layout.isPowerOfTwo_align, sound.2, hsize.resolve_right sound.1⟩
  · rintro ⟨hp, hc, hs⟩
    obtain ⟨layout, hl⟩ := Layout.exists_of? hp (fun huge => not_small_of_huge huge hs) hc
    obtain ⟨hsize, halign⟩ := Layout.of?_eq_some_iff.1 hl
    rw [hl]
    exact h.grants layout state (halign ▸ hc) (hsize ▸ small_max_one_iff.2 hs)

theorem StatusAllocator.Conforms.grants_iff_small (h : system.Conforms)
    (hsize : IsSmall size ∨ IsHuge size) (state : σ) :
    (system.source.request size 64 state).1.isSome = decide (IsSmall size) := by
  rw [Bool.eq_iff_iff, h.request_isSome_iff hsize, decide_eq_true_iff]
  exact ⟨fun granted => granted.2.2, fun small => ⟨by decide, by decide, small⟩⟩

theorem LayoutAllocator.Conforms.grants_iff_small (h : own.Conforms)
    (hsize : IsSmall size ∨ IsHuge size) (state : τ) :
    (own.source.request size 64 state).1.isSome = decide (IsSmall size) := by
  rw [Bool.eq_iff_iff, h.request_isSome_iff hsize, decide_eq_true_iff]
  exact ⟨fun granted => granted.2.2, fun small => ⟨by decide, by decide, small⟩⟩

end Requests

/-! ## Behind the hooks -/

/-- How much memory a call asks the source for, if it asks for any. -/
def Call.requested? : Call → Option UInt64
  | .observe .. => none
  | .allocate size _ => some size
  | .allocateZeroed count size _ => some (totalSize count size)
  | .reset => none

namespace Watch

theorem isSome_step (source : Source σ) (w : Watch σ) (call : Call) :
    (w.step source call).1.isSome =
      call.requested?.any fun size => (source.request size 64 w.source).1.isSome := by
  cases call with
  | observe => rfl
  | allocate => rfl
  | allocateZeroed count size site =>
    rw [step, allocateZeroed_eq]
    rfl
  | reset => rfl

/-- **Which calls of a sequence get a block**, over a source whose answers to the sizes that are asked
for do not hang on its state. -/
theorem map_isSome_blocks {source : Source σ} {granted : UInt64 → Bool} {calls : List Call}
    (h : ∀ call ∈ calls, ∀ size ∈ call.requested?, ∀ state,
      (source.request size 64 state).1.isSome = granted size) (w : Watch σ) :
    (w.blocks source calls).map Option.isSome = calls.map fun call => call.requested?.any granted := by
  induction calls generalizing w with
  | nil => rfl
  | cons call calls ih =>
    obtain ⟨hcall, hcalls⟩ := List.forall_mem_cons.1 h
    have first : (w.step source call).1.isSome = call.requested?.any granted := by
      rw [isSome_step]
      cases hsize : call.requested? with
      | none => rfl
      | some size => exact hcall size hsize w.source
    rw [blocks, List.map_cons, List.map_cons, first]
    exact congrArg (_ :: ·) (ih hcalls _)

theorem table_run_congr {source : Source σ} {source' : Source τ} {w : Watch σ} {w' : Watch τ}
    (h : w.table = w'.table) (calls : List Call) :
    (w.run source calls).table = (w'.run source' calls).table := by
  induction calls generalizing w w' with
  | nil => exact h
  | cons call calls ih =>
    refine ih ?_
    rw [table_step, table_step, h]

end Watch

/-! ## The whole -/

/-- **Either heap can stand in place of the other.** Take any allocators that are as they are relied on.

* Two watches over the two heaps, with the same table, get blocks for the same calls of any sequence of
  small and huge requests: for those of a small size. Their tables stay the same.
* On a small or a huge size, one heap grants and the other refuses exactly if the size is small and the
  alignment is 1, 2 or 4.
* Both grant a size of 0, at every alignment that the system serves.
* What the system grants has a layout, whatever its size. -/
theorem heaps_interchange {system : StatusAllocator σ} {own : LayoutAllocator τ}
    (hsystem : system.Conforms) (hown : own.Conforms) :
    (∀ (w : Watch σ) (w' : Watch τ) (calls : List Call), w.table = w'.table →
      (∀ call ∈ calls, ∀ size ∈ call.requested?, IsSmall size ∨ IsHuge size) →
      (w.blocks system.source calls).map Option.isSome =
        calls.map (fun call => call.requested?.any fun size => decide (IsSmall size)) ∧
      (w'.blocks own.source calls).map Option.isSome =
        (w.blocks system.source calls).map Option.isSome ∧
      (w'.run own.source calls).table = (w.run system.source calls).table) ∧
    (∀ size align state state', IsSmall size ∨ IsHuge size →
      ((system.source.request size align state).1.isSome ≠
        (own.source.request size align state').1.isSome ↔
        (align = 1 ∨ align = 2 ∨ align = 4) ∧ IsSmall size)) ∧
    (∀ align state state', isPowerOfTwo align = true → align % 8 = 0 → ¬ TooCoarse align →
      (system.source.request 0 align state).1.isSome ∧
      (own.source.request 0 align state').1.isSome) ∧
    ∀ size align state, (system.source.request size align state).1.isSome →
      ∃ layout, Layout.of? (max size 1) align = some layout := by
  refine ⟨?_, ?_, ?_, ?_⟩
  · intro w w' calls table sizes
    have bySystem := Watch.map_isSome_blocks (fun call hcall size hsize state =>
      hsystem.grants_iff_small (sizes call hcall size hsize) state) w
    have byOwn := Watch.map_isSome_blocks (fun call hcall size hsize state =>
      hown.grants_iff_small (sizes call hcall size hsize) state) w'
    exact ⟨bySystem, byOwn.trans bySystem.symm, Watch.table_run_congr table.symm calls⟩
  · intro size align state state' hsize
    rw [ne_eq, Bool.eq_iff_iff, hsystem.request_isSome_iff hsize, hown.request_isSome_iff hsize,
      ← isPowerOfTwo_and_mod_ne_iff]
    constructor
    · intro differ
      -- the own heap grants what the system grants, so it is the own one that grants this
      have granted : isPowerOfTwo align = true ∧ ¬ TooCoarse align ∧ IsSmall size := by
        by_contra refused
        exact differ ⟨fun h => ⟨h.1.1, h.2⟩, fun h => absurd h refused⟩
      obtain ⟨hp, hc, hs⟩ := granted
      refine ⟨⟨hp, fun hm => differ ?_⟩, hs⟩
      exact ⟨fun _ => ⟨hp, hc, hs⟩, fun _ => ⟨⟨hp, hm⟩, hc, hs⟩⟩
    · rintro ⟨⟨hp, hm⟩, hs⟩ same
      have hc : ¬ TooCoarse align := by
        rcases isPowerOfTwo_and_mod_ne_iff.1 ⟨hp, hm⟩ with rfl | rfl | rfl <;> decide
      exact hm (same.2 ⟨hp, hc, hs⟩).1.2
  · intro align state state' hp hm hc
    have small : IsSmall 0 := by decide
    exact ⟨(hsystem.request_isSome_iff (Or.inl small) state).2 ⟨⟨hp, hm⟩, hc, small⟩,
      (hown.request_isSome_iff (Or.inl small) state').2 ⟨hp, hc, small⟩⟩
  · intro size align state granted
    obtain ⟨⟨hp, -⟩, hs, hc⟩ := hsystem.sound_of_granted granted
    exact Layout.exists_of? hp hs hc

/-- The machine's heaps: behind the hooks, with a size of 0, one that wraps around to 0, the largest that
is small, the smallest that is huge, and the largest of all; and alone, at the alignments of 4 and 8. -/
theorem heaps_interchange_at_bounds :
    let calls : List Call := [.allocate 0 ⟨0x1000⟩, .allocateZeroed 0x8000000000000000 2 ⟨0x1000⟩,
      .allocate 0x100000 ⟨0x2000⟩, .allocateZeroed 0x1000000 0x1000000 ⟨0x2000⟩,
      .allocate 0xFFFFFFFFFFFFFFFF ⟨0x3000⟩]
    let w : Watch Nat := ⟨.empty, .filled 0xCC, Heap.bottom⟩
    (w.blocks Heap.system.source calls).map Option.isSome = [true, true, true, false, false] ∧
    (w.blocks Heap.own.source calls).map Option.isSome = [true, true, true, false, false] ∧
    (w.run Heap.own.source calls).table = (w.run Heap.system.source calls).table ∧
    (Heap.system.source.request 0x100000 4 Heap.bottom).1.isSome ≠
      (Heap.own.source.request 0x100000 4 Heap.bottom).1.isSome ∧
    (Heap.system.source.request 0 8 Heap.bottom).1.isSome ∧
    (Heap.own.source.request 0 8 Heap.bottom).1.isSome ∧
    ∃ layout, Layout.of? 1 8 = some layout := by
  intro calls w
  have sizes : ∀ call ∈ calls, ∀ size ∈ call.requested?, IsSmall size ∨ IsHuge size := by
    simp only [calls, List.forall_mem_cons, Call.requested?, Option.mem_def, Option.some.injEq,
      forall_eq', List.not_mem_nil, IsEmpty.forall_iff, implies_true, and_true]
    decide
  obtain ⟨hooks, differ, nothing, laidOut⟩ :=
    heaps_interchange conforms_systemAllocator conforms_ownAllocator
  obtain ⟨system, own, tables⟩ := hooks w w calls rfl sizes
  obtain ⟨bySystem, byOwn⟩ := nothing 8 Heap.bottom Heap.bottom (by decide) (by decide) (by decide)
  refine ⟨system.trans ?_, (own.trans system).trans ?_, tables, (differ _ _ _ _ ?_).2 ?_, bySystem,
    byOwn, laidOut 0 8 Heap.bottom bySystem⟩
  · decide
  · decide
  · decide
  · decide

end HeapWatch
