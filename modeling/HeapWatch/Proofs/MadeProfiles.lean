import HeapWatch.Proofs.SavedProfiles
/-!
# The profiles that the library makes

A profile is made of readings, of a table or of a file, or is the empty one. Made of readings, it has
for each slot the largest size that they list, and depends on nothing else about them. Made of a
table, it has for each slot what the table holds. So two such profiles are equal exactly if they have
the same size for every slot, and two tables are equal exactly if their profiles are.
-/

namespace HeapWatch

/-! ## Profiles of readings -/

/-- Readings that add nothing to others: each is of size 0, or is not above one of the same slot. -/
def Reading.AddsNothing (more readings : List Reading) : Prop :=
  ∀ r ∈ more, r.size = 0 ∨ ∃ s ∈ readings, s.slot = r.slot ∧ r.size ≤ s.size

instance (more readings : List Reading) : Decidable (Reading.AddsNothing more readings) :=
  inferInstanceAs (Decidable (∀ r ∈ more, _))

theorem Reading.AddsNothing.largestFor_append {more readings : List Reading}
    (h : AddsNothing more readings) (slot : UInt64) :
    largestFor (readings ++ more) slot = largestFor readings slot := by
  refine word_eq_of_upper_bounds fun b => ?_
  rw [largestFor_le_iff, largestFor_le_iff, List.forall_mem_append]
  constructor
  · intro hb
    exact hb.1
  · intro hb
    refine ⟨hb, fun r hr e => ?_⟩
    rcases h r hr with zero | ⟨s, hs, same, below⟩
    · exact zero ▸ UInt64.zero_le
    · exact UInt64.le_trans below (hb s hs (same.trans e))

namespace Profile

/-- **The canonical profile of any readings** ascends by slot and lists no size 0 and nothing that is
not among the readings. Bisection finds for each slot the largest size that they list, and 0 if they
list none. Its own readings have the same canonical profile, and so have the readings in another
order, and together with any that add nothing, wherever these come. -/
theorem ofReadings_normalises (readings : List Reading) :
    let p := ofReadings readings
    p.toList.Pairwise (fun a b => a.slot < b.slot) ∧
    (∀ r ∈ p.toList, r ∈ readings ∧ r.size ≠ 0) ∧
    (∀ slot, p.sizeAt slot = Reading.largestFor readings slot) ∧
    ofReadings p.toList = p ∧
    (∀ shuffled, shuffled.Perm readings → ofReadings shuffled = p) ∧
    ∀ more mixed, Reading.AddsNothing more readings → mixed.Perm (readings ++ more) →
      ofReadings mixed = p := by
  intro p
  have hc : p.Canonical := canonical_ofReadings readings
  have mixes : ∀ more mixed, Reading.AddsNothing more readings → mixed.Perm (readings ++ more) →
      ofReadings mixed = p := by
    intro more mixed hmore hperm
    refine ofReadings_eq_iff.2 fun slot => ?_
    rw [Reading.largestFor_congr (fun _ => hperm.mem_iff), hmore.largestFor_append]
  refine ⟨hc.1, fun r => mem_of_mem_ofReadings, ?_, ofReadings_of_canonical hc, ?_, mixes⟩
  · intro slot
    rw [sizeAt_eq_largestFor hc, largestFor_ofReadings]
  · intro shuffled hperm
    exact mixes [] shuffled (fun r hr => absurd hr List.not_mem_nil) (by simpa using hperm)

/-- Slot 9 is listed three times and slot 5 with size 0. The readings may be turned around, and a
smaller one of slot 3, a repeated one and one of size 0 may come between them. -/
theorem ofReadings_normalises_repeated :
    let readings : List Reading := [⟨9, 1⟩, ⟨3, 4⟩, ⟨9, 0xFFFFFFFFFFFFFFFF⟩, ⟨5, 0⟩, ⟨9, 7⟩]
    let more : List Reading := [⟨3, 2⟩, ⟨9, 7⟩, ⟨0, 0⟩]
    let mixed : List Reading :=
      [⟨0, 0⟩, ⟨9, 7⟩, ⟨5, 0⟩, ⟨3, 2⟩, ⟨9, 0xFFFFFFFFFFFFFFFF⟩, ⟨3, 4⟩, ⟨9, 7⟩, ⟨9, 1⟩]
    (ofReadings readings).sizeAt 9 = 0xFFFFFFFFFFFFFFFF ∧ (ofReadings readings).sizeAt 5 = 0 ∧
    ofReadings readings.reverse = ofReadings readings ∧
    Reading.AddsNothing more readings ∧ ofReadings mixed = ofReadings readings := by
  intro readings more mixed
  obtain ⟨-, -, sizes, -, shuffles, mixes⟩ := ofReadings_normalises readings
  have hmore : Reading.AddsNothing more readings := by decide
  refine ⟨(sizes 9).trans (by decide), (sizes 5).trans (by decide), ?_, hmore, ?_⟩
  · exact shuffles _ (List.reverse_perm readings)
  · exact mixes more mixed hmore (by decide)

/-! ## Equal profiles -/

/-- A profile that the library has made: of a table, of readings or of a file, or the empty one. -/
inductive Made : Profile → Prop where
  | capture (t : SizeTable) : Made (capture t)
  | ofReadings (readings : List Reading) : Made (ofReadings readings)
  | load {store : FileStore} {path : String} {p : Profile} (h : load store path = .ok p) : Made p
  | empty : Made empty

theorem exists_ofReadings_of_load {store : FileStore} {path : String} {p : Profile}
    (h : load store path = .ok p) : ∃ readings, p = ofReadings readings := by
  unfold load ofBytes at h
  split at h
  · cases h
  · split at h
    · cases h
    · exact ⟨_, (Except.ok.inj h).symm⟩

theorem Made.canonical {p : Profile} (h : Made p) : p.Canonical := by
  cases h with
  | capture t => exact canonical_capture t
  | ofReadings readings => exact canonical_ofReadings readings
  | load h =>
    obtain ⟨readings, rfl⟩ := exists_ofReadings_of_load h
    exact canonical_ofReadings readings
  | empty => decide

/-- **Profiles that the library has made** are equal exactly if they have the same sizes. -/
theorem Made.eq_iff {p q : Profile} (hp : Made p) (hq : Made q) :
    p = q ↔ ∀ slot, p.sizeAt slot = q.sizeAt slot := by
  constructor
  · rintro rfl slot
    rfl
  · intro same
    refine eq_of_largestFor hp.canonical hq.canonical fun slot => ?_
    rw [← sizeAt_eq_largestFor hp.canonical, ← sizeAt_eq_largestFor hq.canonical, same]

/-! ## Profiles of tables -/

theorem length_capture (t : SizeTable) :
    (capture t).length = (List.finRange slotCount).countP fun slot => t.sizeAt slot != 0 := by
  have listed : (capture t).length = t.used.length := by simp [capture, length, ofList]
  rw [listed, SizeTable.used, SizeTable.toList, ← List.countP_eq_length_filter, List.countP_map]
  rfl

theorem eq_of_sizeAt_capture {t t' : SizeTable}
    (same : ∀ slot, (capture t).sizeAt slot = (capture t').sizeAt slot) : t = t' := by
  refine SizeTable.ext_sizeAt fun slot => ?_
  have h := same slot.val.toUInt64
  rw [sizeAt_capture, sizeAt_capture, t.size?_eq_sizeAt slot _ (toNat_slot slot),
    t'.size?_eq_sizeAt slot _ (toNat_slot slot)] at h
  exact h

/-- **A captured table is faithful.** It is put together slot by slot, and is the canonical profile
of all slots' readings. For any number it has what the table holds in the slot of that number, and 0
if there is no such slot; and it is as long as there are slots in use. A made profile is equal to
another exactly if it has the same size for every slot, and a captured one exactly if the table is
the same. -/
theorem capture_is_faithful (t : SizeTable) :
    capture t = ofReadings t.readings ∧
    (∀ number : UInt64, (capture t).sizeAt number = (t.size? number).getD 0) ∧
    ((capture t).length = (List.finRange slotCount).countP fun slot => t.sizeAt slot != 0) ∧
    (∀ t' : SizeTable, capture t = capture t' ↔ t = t') ∧
    ∀ p q : Profile, Made p → Made q → (p = q ↔ ∀ slot, p.sizeAt slot = q.sizeAt slot) := by
  refine ⟨capture_eq_ofReadings t, sizeAt_capture t, length_capture t, ?_, ?_⟩
  · intro t'
    constructor
    · intro h
      exact eq_of_sizeAt_capture fun slot => by rw [h]
    · rintro rfl
      rfl
  · intro p q hp hq
    exact hp.eq_iff hq

/-- Two sites of slot 256 have asked for 10 and for 3 bytes, and a file lists both sizes out of
order, and slot 7 with size 0. The profile of the table is loaded from the file. It has 0 for the
number behind the last slot, and is not the profile of the table as it was before. -/
theorem capture_is_faithful_loaded :
    let t := (SizeTable.empty.record ⟨0x1000⟩ 10).record ⟨0x41000⟩ 3
    let listed : Profile := ⟨#[⟨256, 3⟩, ⟨7, 0⟩, ⟨256, 10⟩]⟩
    let store : FileStore := .ofFiles [("run", listed.json)]
    (∃ loaded, load store "run" = .ok loaded ∧ loaded = capture t) ∧
    (capture t).sizeAt 16384 = 0 ∧ capture t ≠ capture .empty ∧ capture t ≠ empty := by
  intro t listed store
  obtain ⟨-, sizes, -, tables, equal⟩ := capture_is_faithful t
  have first : Site.slot ⟨0x1000⟩ = ⟨256, by decide⟩ := by decide
  have second : Site.slot ⟨0x41000⟩ = ⟨256, by decide⟩ := by decide
  have held : ∀ number : UInt64, (t.size? number).getD 0 = if number = 256 then 10 else 0 := by
    intro number
    by_cases e : number = 256
    · subst e
      rw [t.size?_eq_sizeAt ⟨256, by decide⟩ 256 rfl]
      simp [t, SizeTable.sizeAt_record, first, second]
      decide
    · rw [if_neg e]
      by_cases h : number.toNat < slotCount
      · have elsewhere : (⟨256, by decide⟩ : Fin slotCount) ≠ ⟨number.toNat, h⟩ := fun same =>
          e (UInt64.toNat_inj.1 (congrArg Fin.val same).symm)
        rw [t.size?_eq_sizeAt ⟨number.toNat, h⟩ number rfl]
        simp [t, SizeTable.sizeAt_record, first, second, elsewhere]
      · rw [(t.size?_eq_none_iff number).2 (Nat.le_of_not_lt h)]
        rfl
  have hload : load store "run" = .ok (ofReadings listed.toList) :=
    listed.load_of_read (Json.spaced_compact listed.tokens) (by rfl)
  have inUse : (capture t).sizeAt 256 = 10 := by rw [sizes, held, if_pos rfl]
  refine ⟨⟨_, hload, (equal _ _ (.load hload) (.capture t)).2 fun slot => ?_⟩, ?_, ?_, ?_⟩
  · rw [sizes, held, sizeAt_eq_largestFor (canonical_ofReadings _), largestFor_ofReadings]
    by_cases e : slot = 256
    · subst e
      decide
    · simp [listed, toList, Reading.largestFor, e, Ne.symm e]
  · rw [sizes, held]
    decide
  · intro h
    have used := held 256
    rw [(tables .empty).1 h, SizeTable.size?_eq_sizeAt .empty ⟨256, by decide⟩ 256 rfl] at used
    simp at used
  · intro h
    rw [h] at inUse
    exact absurd inUse (by decide +kernel)

end Profile

end HeapWatch
