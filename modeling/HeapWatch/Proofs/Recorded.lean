import Mathlib.Data.List.Induction
import HeapWatch.Watch
/-!
# What a table has recorded

A slot holds the largest size that its sites have asked for since the last reset, whatever the
source has answered: a refused request is recorded like a granted one. So the order of the requests
between two resets does not matter, and nothing from before a reset is left after it. Maxima are
compared by their upper bounds (`Call.largestIn_le_iff`).
-/

namespace HeapWatch

/-- The larger of two words is one of them, and its upper bounds are those of both. -/
instance lawfulOrderMax_word : Std.LawfulOrderMax UInt64 where
  max_le_iff a b c := by
    rw [show max a b = if a ≤ b then b else a from rfl]
    split
    · rename_i h
      exact ⟨fun hb => ⟨UInt64.le_trans h hb, hb⟩, fun hc => hc.2⟩
    · rename_i h
      have hba : b ≤ a := (UInt64.le_total a b).resolve_left h
      exact ⟨fun ha => ⟨ha, UInt64.le_trans hba ha⟩, fun hc => hc.1⟩
  max_eq_or a b := by
    rw [show max a b = if a ≤ b then b else a from rfl]
    split
    · exact Or.inr rfl
    · exact Or.inl rfl

theorem word_eq_of_upper_bounds {a b : UInt64} (h : ∀ c, a ≤ c ↔ b ≤ c) : a = b :=
  UInt64.le_antisymm ((h b).2 (UInt64.le_refl b)) ((h a).1 (UInt64.le_refl a))

theorem word_max_of_le {a b : UInt64} (h : b ≤ a) : max a b = a :=
  word_eq_of_upper_bounds fun c => by
    rw [Std.max_le_iff]
    exact ⟨fun hc => hc.1, fun hc => ⟨hc, UInt64.le_trans h hc⟩⟩

@[simp] theorem word_max_zero (a : UInt64) : max a 0 = a := word_max_of_le UInt64.zero_le

theorem word_zero_max (a : UInt64) : max 0 a = a :=
  word_eq_of_upper_bounds fun b => by
    rw [Std.max_le_iff]
    exact ⟨fun h => h.2, fun h => ⟨UInt64.zero_le, h⟩⟩

theorem word_max_lt_iff {a b c : UInt64} : max a b < c ↔ a < c ∧ b < c := by
  rw [show max a b = if a ≤ b then b else a from rfl]
  split
  · rename_i h
    exact ⟨fun hb => ⟨UInt64.lt_of_le_of_lt h hb, hb⟩, fun hc => hc.2⟩
  · rename_i h
    have hba : b < a := UInt64.not_le.1 h
    exact ⟨fun ha => ⟨ha, UInt64.lt_trans hba ha⟩, fun hc => hc.1⟩

theorem word_lt_max_iff {a b : UInt64} : a < max a b ↔ a < b := by
  rw [← UInt64.not_le, Std.max_le_iff, ← UInt64.not_le]
  simp only [UInt64.le_refl, true_and]

theorem foldr_max_le_iff {words : List UInt64} {b : UInt64} :
    words.foldr max 0 ≤ b ↔ ∀ a ∈ words, a ≤ b := by
  induction words with
  | nil => simp [UInt64.zero_le]
  | cons a words ih => simp only [List.foldr_cons, Std.max_le_iff, ih, List.forall_mem_cons]

theorem foldr_max_mem {words : List UInt64} (h : words.foldr max 0 ≠ 0) :
    words.foldr max 0 ∈ words := by
  induction words with
  | nil => exact absurd rfl h
  | cons a words ih =>
    rw [List.foldr_cons] at h ⊢
    rcases Std.max_eq_or (a := a) (b := words.foldr max 0) with e | e
    · rw [e]; exact List.mem_cons_self
    · rw [e] at h ⊢; exact List.mem_cons_of_mem _ (ih h)

/-! ## The requests since the last reset -/

namespace Call

/-- Of two sequences in a row the second one counts alone if it has a reset in it. -/
theorem sinceReset_append (early late : List Call) :
    sinceReset (early ++ late) =
      if .reset ∈ late then sinceReset late else sinceReset early ++ sinceReset late := by
  induction early with
  | nil => simp [sinceReset]
  | cons call early ih =>
    rw [List.cons_append, sinceReset, ih]
    by_cases hl : .reset ∈ late
    · simp [hl]
    · by_cases he : .reset ∈ early <;> simp [sinceReset, hl, he]

theorem sinceReset_append_reset (early late : List Call) :
    sinceReset (early ++ .reset :: late) = sinceReset late := by
  rw [sinceReset_append, if_pos List.mem_cons_self, sinceReset]
  by_cases hl : .reset ∈ late <;> simp [hl, recorded?]

theorem sinceReset_of_notMem {calls : List Call} (h : .reset ∉ calls) :
    sinceReset calls = calls.filterMap recorded? := by
  induction calls with
  | nil => rfl
  | cons call calls ih =>
    rw [List.mem_cons, not_or] at h
    rw [sinceReset, if_neg h.2, ih h.2, List.filterMap_cons]
    cases call.recorded? <;> rfl

/-- **The largest size, by its upper bounds.** -/
theorem largestIn_le_iff {calls : List Call} {slot : Fin slotCount} {b : UInt64} :
    largestIn calls slot ≤ b ↔ ∀ r ∈ sinceReset calls, r.1.slot = slot → r.2 ≤ b := by
  rw [largestIn, foldr_max_le_iff, List.forall_mem_map]
  simp only [List.mem_filter, decide_eq_true_eq, and_imp]

theorem le_largestIn {calls : List Call} {r : Site × UInt64} (h : r ∈ sinceReset calls) :
    r.2 ≤ largestIn calls r.1.slot :=
  largestIn_le_iff.1 (UInt64.le_refl _) r h rfl

/-- The largest size of a slot, if it is not 0, was really asked for. -/
theorem exists_largestIn {calls : List Call} {slot : Fin slotCount}
    (h : largestIn calls slot ≠ 0) :
    ∃ site, site.slot = slot ∧ (site, largestIn calls slot) ∈ sinceReset calls := by
  obtain ⟨⟨site, size⟩, hm, e⟩ := List.mem_map.1 (foldr_max_mem h)
  rw [List.mem_filter, decide_eq_true_eq] at hm
  obtain rfl : size = largestIn calls slot := e
  exact ⟨site, hm.2, hm.1⟩

theorem largestIn_perm (before after : List Call) {block shuffled : List Call}
    (hp : block.Perm shuffled) (hr : .reset ∉ block) (slot : Fin slotCount) :
    largestIn (before ++ block ++ after) slot = largestIn (before ++ shuffled ++ after) slot := by
  have hs : .reset ∉ shuffled := fun h => hr (hp.mem_iff.2 h)
  refine word_eq_of_upper_bounds fun b => ?_
  rw [largestIn_le_iff, largestIn_le_iff]
  simp only [sinceReset_append, if_neg hr, if_neg hs, sinceReset_of_notMem hr,
    sinceReset_of_notMem hs]
  have hm : ∀ r, r ∈ block.filterMap recorded? ↔ r ∈ shuffled.filterMap recorded? :=
    fun r => (hp.filterMap recorded?).mem_iff
  split
  · exact Iff.rfl
  · simp only [List.mem_append, hm]

end Call

/-! ## What is recorded after a sequence of calls -/

theorem SizeTable.ext_sizeAt {t t' : SizeTable} (h : ∀ slot, t.sizeAt slot = t'.sizeAt slot) :
    t = t' := by
  obtain ⟨sizes⟩ := t
  obtain ⟨sizes'⟩ := t'
  congr 1
  exact Vector.ext fun i hi => h ⟨i, hi⟩

namespace Watch

variable {σ τ : Type}

/-- **One call.** A reset leaves 0, and a request raises its own slot. -/
theorem sizeAt_step (source : Source σ) (w : Watch σ) (call : Call) (slot : Fin slotCount) :
    (w.step source call).2.table.sizeAt slot =
      match call.recorded? with
      | some (site, size) =>
        if site.slot = slot then max (w.table.sizeAt slot) size else w.table.sizeAt slot
      | none => 0 := by
  rw [table_step]
  cases call.recorded? with
  | none => exact SizeTable.sizeAt_cleared _ _
  | some r => exact SizeTable.sizeAt_record _ _ _ _

theorem recorded?_eq_none_iff {call : Call} : call.recorded? = none ↔ call = .reset := by
  cases call <;> simp [Call.recorded?]

/-- **A sequence of calls** on an empty table leaves in each slot the largest size asked for since
the last reset. -/
theorem sizeAt_run (source : Source σ) (memory : Memory) (state : σ) (calls : List Call)
    (slot : Fin slotCount) :
    (run source ⟨.empty, memory, state⟩ calls).table.sizeAt slot = Call.largestIn calls slot := by
  -- from the last call backwards: what it records is compared with what was there before
  induction calls using List.reverseRecOn with
  | nil => simp [run, Call.largestIn, Call.sinceReset]
  | append_singleton calls call ih =>
    rw [run, List.foldl_append, List.foldl_cons, List.foldl_nil, ← run, sizeAt_step, ih]
    refine word_eq_of_upper_bounds fun b => ?_
    rw [Call.largestIn_le_iff, Call.sinceReset_append]
    cases hc : call.recorded? with
    | none =>
      obtain rfl := recorded?_eq_none_iff.1 hc
      simp [Call.sinceReset, Call.recorded?, UInt64.zero_le]
    | some r =>
      have hne : .reset ∉ [call] := by
        rw [List.mem_singleton]
        rintro rfl
        simp [Call.recorded?] at hc
      rw [if_neg hne]
      by_cases hs : r.1.slot = slot
      · simp [Call.sinceReset, hc, hs, Std.max_le_iff, Call.largestIn_le_iff, or_imp, forall_and]
      · simp [Call.sinceReset, hc, hs, Call.largestIn_le_iff, or_imp, forall_and]

theorem toList_run (source : Source σ) (memory : Memory) (state : σ) (calls : List Call) :
    (run source ⟨.empty, memory, state⟩ calls).table.toList =
      (List.finRange slotCount).map fun slot => (slot, Call.largestIn calls slot) :=
  List.map_congr_left fun slot _ => by rw [sizeAt_run]

/-- The table after a sequence of calls does not depend on the source or on what it answered. -/
theorem table_run_eq (source : Source σ) (memory : Memory) (state : σ) (source' : Source τ)
    (memory' : Memory) (state' : τ) {calls calls' : List Call}
    (h : ∀ slot, Call.largestIn calls slot = Call.largestIn calls' slot) :
    (run source ⟨.empty, memory, state⟩ calls).table =
      (run source' ⟨.empty, memory', state'⟩ calls').table :=
  SizeTable.ext_sizeAt fun slot => by rw [sizeAt_run, sizeAt_run, h]

/-- **The table is the record of the requests.** However the source answers, a slot's size, read by
its number, by a site of it or in the list of all slots, is the largest one asked for since the last
reset. The requests between two resets may come in any order, and nothing from before a reset is
left. -/
theorem run_records_largest (source : Source σ) (memory : Memory) (state : σ)
    (calls : List Call) :
    let t := (run source ⟨.empty, memory, state⟩ calls).table
    (∀ number : UInt64, t.size? number =
      if h : number.toNat < slotCount then some (Call.largestIn calls ⟨number.toNat, h⟩)
      else none) ∧
    t.toList = (List.finRange slotCount).map (fun slot => (slot, Call.largestIn calls slot)) ∧
    (∀ site : Site, t.sizeFor site = Call.largestIn calls site.slot) ∧
    (∀ (τ : Type) (source' : Source τ) (memory' : Memory) (state' : τ)
      (before block shuffled after : List Call), calls = before ++ block ++ after →
      .reset ∉ block → block.Perm shuffled →
      (run source' ⟨.empty, memory', state'⟩ (before ++ shuffled ++ after)).table = t) ∧
    (∀ (τ : Type) (source' : Source τ) (memory' : Memory) (state' : τ) (early late : List Call),
      calls = early ++ .reset :: late →
      (run source' ⟨.empty, memory', state'⟩ late).table = t) := by
  intro t
  refine ⟨fun number => ?_, toList_run source memory state calls,
    fun site => sizeAt_run source memory state calls site.slot, ?_, ?_⟩
  · split
    · rename_i h
      rw [t.size?_eq_sizeAt ⟨number.toNat, h⟩ number rfl, sizeAt_run]
    · rename_i h
      exact (t.size?_eq_none_iff number).2 (Nat.le_of_not_lt h)
  · rintro τ source' memory' state' before block shuffled after rfl hr hp
    exact table_run_eq _ _ _ _ _ _ fun slot => (Call.largestIn_perm before after hp hr slot).symm
  · rintro τ source' memory' state' early late rfl
    refine table_run_eq _ _ _ _ _ _ fun slot => ?_
    rw [Call.largestIn, Call.largestIn, Call.sinceReset_append_reset]

/-- A source that refuses everything, two sites of one slot, a product that wraps around to 0 and an
older request that a reset has wiped out: the slot holds the larger of the two requests left, in
either order. -/
theorem run_records_largest_refused :
    let refusing : Source Unit := ⟨fun _ _ state => (none, state)⟩
    let requests : List Call := [.allocate 100 ⟨0x1000⟩,
      .allocateZeroed 0x8000000000000000 2 ⟨0x1000⟩, .allocateZeroed 3 50 ⟨0x41000⟩]
    let t := (run refusing ⟨.empty, .filled 0, ()⟩
      ([.observe ⟨0x1000⟩ 900, .reset] ++ requests ++ [])).table
    t.size? 256 = some 150 ∧ t.size? 16384 = none ∧
      (run refusing ⟨.empty, .filled 0, ()⟩
        ([.observe ⟨0x1000⟩ 900, .reset] ++ requests.reverse ++ [])).table = t := by
  intro refusing requests t
  obtain ⟨byNumber, -, -, shuffled, -⟩ := run_records_largest refusing (.filled 0) ()
    ([.observe ⟨0x1000⟩ 900, .reset] ++ requests ++ [])
  refine ⟨(byNumber 256).trans (by decide +kernel),
    (byNumber 16384).trans (by decide +kernel), ?_⟩
  exact shuffled Unit refusing (.filled 0) () _ requests _ [] rfl (by decide)
    (List.reverse_perm requests).symm

end Watch

end HeapWatch
