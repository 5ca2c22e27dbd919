/-!
# Memory and sources of memory

A memory gives each address its byte. What is done to it here is one thing only: the bytes of a span
of addresses are set to 0. It is kept as the bytes it held at first with the spans that were zeroed
since, so that a large span costs no more than a small one.

A source answers a request for a size and an alignment with the address of a block, or with nothing
when it refuses. It has a state of its own, so that it may answer as it likes from one request to the
next.

* `Memory.byteAt_zeroed`: zeroing changes the bytes of the span and no others.
* `Memory.isZero_iff`: a span is zero when each of its bytes is.
-/

namespace HeapWatch

/-- The addresses from one on, so many of them. -/
structure Span where
  start : Nat
  length : Nat
deriving DecidableEq, Repr

namespace Span

def contains (s : Span) (address : Nat) : Bool :=
  s.start ≤ address && address < s.start + s.length

def covers (outer inner : Span) : Bool :=
  outer.start ≤ inner.start && inner.start + inner.length ≤ outer.start + outer.length

theorem contains_iff {s : Span} {address : Nat} :
    s.contains address ↔ s.start ≤ address ∧ address < s.start + s.length := by
  simp [contains]

theorem contains_of_covers {outer inner : Span} (h : outer.covers inner) {address : Nat}
    (ha : inner.contains address) : outer.contains address := by
  simp only [covers, Bool.and_eq_true, decide_eq_true_eq] at h
  rw [contains_iff] at ha ⊢
  omega

end Span

/-- The bytes at first, and the spans that were set to 0 since. -/
structure Memory where
  initial : Nat → UInt8
  zeroSpans : List Span

namespace Memory

/-- The same byte everywhere. -/
def filled (byte : UInt8) : Memory := ⟨fun _ => byte, []⟩

def byteAt (m : Memory) (address : Nat) : UInt8 :=
  if m.zeroSpans.any (·.contains address) then 0 else m.initial address

/-- The memory after zeros were written to the `length` bytes from `start` on. -/
def zeroed (m : Memory) (start : Nat) (length : Nat) : Memory :=
  { m with zeroSpans := ⟨start, length⟩ :: m.zeroSpans }

/-- Whether the `length` bytes from `start` on are all 0. If one zeroed span has them all, none is
looked at. -/
def isZero (m : Memory) (start : Nat) (length : Nat) : Bool :=
  m.zeroSpans.any (·.covers ⟨start, length⟩) || length.all fun i _ => m.byteAt (start + i) == 0

/-- How many bytes from `start` on are 0 before the first that is not, at most `limit`. -/
def leadingZeros (m : Memory) (start : Nat) : Nat → Nat
  | 0 => 0
  | limit + 1 => if m.byteAt start == 0 then m.leadingZeros (start + 1) limit + 1 else 0

/-! ## What zeroing does to a byte -/

theorem byteAt_zeroed (m : Memory) (start length address : Nat) :
    (m.zeroed start length).byteAt address =
      if start ≤ address ∧ address < start + length then 0 else m.byteAt address := by
  by_cases h : start ≤ address ∧ address < start + length
  · simp [byteAt, zeroed, Span.contains, h]
  · have h' : Span.contains ⟨start, length⟩ address = false := by
      rw [Bool.eq_false_iff, Ne, Span.contains_iff]
      exact h
    simp [byteAt, zeroed, h', h]

/-- A span is zero when each of its bytes is. -/
theorem isZero_iff {m : Memory} {start length : Nat} :
    m.isZero start length ↔ ∀ i < length, m.byteAt (start + i) = 0 := by
  have scan : (length.all fun i _ => m.byteAt (start + i) == 0) ↔
      ∀ i < length, m.byteAt (start + i) = 0 := by
    simp [Nat.all_eq_finRange_all, Fin.forall_iff]
  rw [isZero, Bool.or_eq_true, scan]
  constructor
  · rintro (h | h)
    · intro i hi
      obtain ⟨outer, hm, hc⟩ := List.any_eq_true.1 h
      have inside : Span.contains ⟨start, length⟩ (start + i) :=
        Span.contains_iff.2 ⟨Nat.le_add_right .., Nat.add_lt_add_left hi _⟩
      have covered : m.zeroSpans.any (·.contains (start + i)) :=
        List.any_eq_true.2 ⟨outer, hm, Span.contains_of_covers hc inside⟩
      simp [byteAt, covered]
    · exact h
  · exact Or.inr

end Memory

/-- Answers a request for a size and an alignment with a block's address or a refusal
(`RealAlloc::alloc_aligned`). -/
structure Source (σ : Type) where
  request : UInt64 → UInt64 → σ → Option Nat × σ

end HeapWatch
