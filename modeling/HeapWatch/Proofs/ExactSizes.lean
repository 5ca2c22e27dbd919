import HeapWatch.Proofs.Json.Gaps
import HeapWatch.Proofs.RecordForms
/-!
# Sizes are read exactly or refused

A number in the place of a size is read as exactly what it is written as, and only if it is written
in digits alone and is below 2^64. Any other number is refused, and so is one with a needless 0 in
front, whatever else is in the text. No size is ever wrapped or rounded.
-/

namespace HeapWatch

open Json

namespace Json

/-! ## Numbers -/

namespace Numeral

/-- The number that the digits before the point stand for, however many there are. -/
def magnitude (n : Numeral) : Nat := Digits.toNat 10 (n.whole.map digitValue)

/-- **A numeral stands for a word** if nothing but digits is written and they are below 2^64. -/
theorem quantity_eq_natural_iff {n : Numeral} {word : UInt64} :
    n.quantity = .ok (.natural word) ↔ n.IsPlain ∧ word.toNat = n.magnitude := by
  constructor
  · intro h
    unfold quantity at h
    dsimp only at h
    split at h
    · rename_i plain
      obtain ⟨fraction, exponent, small, positive⟩ := plain
      cases h
      refine ⟨⟨by simpa using positive, fraction, exponent⟩, ?_⟩
      rw [Nat.toUInt64_eq, UInt64.toNat_ofNat']
      exact Nat.mod_eq_of_lt small
    · split at h
      · cases h
      · -- what does not fit is real, and so no word
        cases hr : n.real with
        | error unread => rw [hr] at h; cases h
        | ok value => rw [hr] at h; cases h
  · rintro ⟨⟨positive, fraction, exponent⟩, exact⟩
    have small : n.magnitude < UInt64.size := exact ▸ word.toNat_lt_size
    have same : n.magnitude.toUInt64 = word := by
      rw [← exact, Nat.toUInt64_eq]
      exact UInt64.ofNat_toNat
    rw [quantity, if_pos ⟨fraction, exponent, small, by rw [positive]; rfl⟩]
    exact congrArg (fun word => Except.ok (Quantity.natural word)) same

end Numeral

namespace Reader

/-- **A number is accepted as a word** if it is one, as the word that it is. -/
theorem accepts_number_iff {n : Numeral} (hn : n.WellFormed) {value : UInt64} :
    word.Accepts [n.write] value ↔ n.IsPlain ∧ value.toNat = n.magnitude := by
  rw [← Numeral.quantity_eq_natural_iff]
  constructor
  · intro h
    obtain ⟨text, begins, read⟩ := h.exists_read
    exact quantity_of_read hn begins endsNumber_nil read
  · exact accepts_number hn

/-! ## A needless 0 -/

/-- Digits with a needless 0 in front of them, after a minus or not. What comes after the first digit
may be anything. -/
def zeroPadded (negative : Bool) (digit : UInt8) (more : Bytes) : Bytes :=
  (if negative then [Byte.minus] else []) ++ Byte.zero :: digit :: more

theorem exists_zeroPadded_eq_cons (negative : Bool) (digit : UInt8) (more : Bytes) :
    ∃ b token, zeroPadded negative digit more = b :: token ∧
      (b = Byte.minus ∨ Byte.isDigit b) := by
  cases negative with
  | false => exact ⟨Byte.zero, digit :: more, rfl, Or.inr rfl⟩
  | true => exact ⟨Byte.minus, Byte.zero :: digit :: more, rfl, Or.inl rfl⟩

theorem scan_zeroPadded (atEnd : Cause) (negative : Bool) {digit : UInt8} (hd : Byte.isDigit digit)
    (more rest : Bytes) :
    Numeral.scan atEnd (zeroPadded negative digit more ++ rest) =
      .error (.within .badNumber (digit :: (more ++ rest))) := by
  have unsigned : (Numeral.scanMinus (zeroPadded negative digit more ++ rest)).2 =
      Byte.zero :: digit :: (more ++ rest) := by
    cases negative <;> rfl
  rw [Numeral.scan, unsigned, Numeral.scanWhole, if_pos rfl, if_pos hd]

/-- **A needless 0 is refused**, whatever comes after it. -/
theorem read_zeroPadded (negative : Bool) {digit : UInt8} (hd : Byte.isDigit digit) (more : Bytes)
    {text rest : Bytes} (ht : Begins [zeroPadded negative digit more] text rest) :
    word.read text = .error (.within .badNumber (digit :: (more ++ rest))) := by
  obtain ⟨b, token, hw, hb⟩ := exists_zeroPadded_eq_cons negative digit more
  have scanned := scan_zeroPadded .endInValue negative hd more rest
  rw [hw] at ht scanned
  obtain ⟨s, hs, hr⟩ := ht.skipBlanks_cons (ne_of_startsNumber hb).1
  cases hr
  change readWord text = _
  rw [readWord, hs]
  dsimp only
  rw [if_pos hb, scanQuantity, ← List.cons_append, scanned]

theorem not_accepts_zeroPadded (negative : Bool) {digit : UInt8} (hd : Byte.isDigit digit)
    (more : Bytes) (value : UInt64) : ¬ word.Accepts [zeroPadded negative digit more] value := by
  intro h
  obtain ⟨text, begins, read⟩ := h.exists_read
  rw [read_zeroPadded negative hd more begins] at read
  cases read

theorem settles_zeroPadded (negative : Bool) {digit : UInt8} (hd : Byte.isDigit digit)
    (more : Bytes) : word.Settles [zeroPadded negative digit more] := by
  obtain ⟨b, token, hw, hb⟩ := exists_zeroPadded_eq_cons negative digit more
  obtain ⟨blank, list, -⟩ := ne_of_startsNumber hb
  refine ⟨⟨b, token, [], by rw [hw], blank, list⟩, fun ht _ h => ?_⟩
  rw [read_zeroPadded negative hd more ht] at h
  cases h

/-! ## Gaps for words -/

variable {α : Type}

/-- **A word is read exactly** in a gap, or the whole is refused: `make` makes the whole of the word
that the number in the gap is. -/
structure ReadsExactly (r : Reader α) (fill : Tokens → Tokens) (make : UInt64 → α) : Prop where
  /-- The numbers that are read are those written in digits alone that are below 2^64. -/
  reads_iff : ∀ {n : Numeral} {text : Bytes}, n.WellFormed → Spaced (fill [n.write]) text →
    ((∃ value, r.decode text = .ok value) ↔ n.IsPlain ∧ n.magnitude < UInt64.size)
  /-- What is read is the number, and the rest is as it was. -/
  eq_make : ∀ {n : Numeral} {text : Bytes} {value : α}, n.WellFormed →
    Spaced (fill [n.write]) text → r.decode text = .ok value →
    ∃ word : UInt64, word.toNat = n.magnitude ∧ value = make word
  /-- A needless 0 is refused. -/
  refuses_zeroPadded : ∀ {negative : Bool} {digit : UInt8} {more text : Bytes},
    Byte.isDigit digit → Spaced (fill [zeroPadded negative digit more]) text →
    ∃ refusal, r.decode text = .error refusal

/-- A text that is valid but for a gap: some value in the gap makes it valid. -/
def ValidBut (r : Reader α) (fill : Tokens → Tokens) (valid : α) : Prop :=
  ∃ (sample : Tokens) (text : Bytes), IsValue sample ∧ Spaced (fill sample) text ∧
    r.decode text = .ok valid

/-- **Words are read exactly in every gap for a word.** -/
theorem Gap.readsExactly {r : Reader α} {fill : Tokens → Tokens} {make : UInt64 → α}
    (g : Gap word r fill make) : r.ReadsExactly fill make where
  reads_iff {n text} hn ht := by
    have settles := settled_word.settles (IsValue.number hn)
    constructor
    · rintro ⟨value, h⟩
      obtain ⟨word, accepted, -⟩ := (g.decode_eq_ok_iff settles ht).1 h
      obtain ⟨plain, exact⟩ := (accepts_number_iff hn).1 accepted
      exact ⟨plain, exact ▸ word.toNat_lt_size⟩
    · rintro ⟨plain, small⟩
      have exact : (UInt64.ofNat n.magnitude).toNat = n.magnitude :=
        UInt64.toNat_ofNat_of_lt' small
      exact ⟨_, (g.decode_eq_ok_iff settles ht).2
        ⟨_, (accepts_number_iff hn).2 ⟨plain, exact⟩, rfl⟩⟩
  eq_make {n text value} hn ht h := by
    have settles := settled_word.settles (IsValue.number hn)
    obtain ⟨word, accepted, made⟩ := (g.decode_eq_ok_iff settles ht).1 h
    exact ⟨word, ((accepts_number_iff hn).1 accepted).2, made⟩
  refuses_zeroPadded {negative digit more text} hd ht := by
    cases hr : r.decode text with
    | error refusal => exact ⟨refusal, rfl⟩
    | ok value =>
      obtain ⟨word, accepted, -⟩ :=
        (g.decode_eq_ok_iff (settles_zeroPadded negative hd more) ht).1 hr
      exact absurd accepted (not_accepts_zeroPadded negative hd more word)

end Reader

end Json

/-! ## Readings and thresholds -/

/-- A reading with another word for one of its fields, in the order of the fields. -/
def Reading.withField (r : Reading) : Fin 2 → UInt64 → Reading
  | 0, word => { r with slot := word }
  | 1, word => { r with size := word }

/-- A threshold with another word for one of its fields, in the order of the fields. -/
def Threshold.withField (t : Threshold) : Fin 2 → UInt64 → Threshold
  | 0, word => { t with leastSize := word }
  | 1, word => { t with growthFactor := word }

/-- A profile with another word for one field of the reading number `k`. -/
def Profile.withField (p : Profile) (k : Nat) (i : Fin 2) (word : UInt64) : Profile :=
  ofList (p.toList.modify k fun r => r.withField i word)

/-- The gap for a field of the reading number `k` in the text of a profile. -/
inductive Profile.FieldGap (k : Nat) (i : Fin 2) : (Tokens → Tokens) → Prop where
  | within {whole list reading : Tokens → Tokens} (inProfile : Profile.shape.FieldGap 0 whole)
      (inList : ElementGap k list) (inReading : Reading.shape.FieldGap i reading) :
      Profile.FieldGap k i fun part => whole (list (reading part))

theorem Profile.FieldGap.isValue {k : Nat} {i : Fin 2} {fill : Tokens → Tokens}
    (g : Profile.FieldGap k i fill) {part : Tokens} (h : IsValue part) : IsValue (fill part) := by
  cases g with
  | within inProfile inList inReading =>
    exact inProfile.isValue (inList.isValue (inReading.isValue h))

/-- What is made of two values of which one is set. -/
theorem make_set_pair {α β : Type} (make : α → α → β) (values : Vector α 2) (i : Fin 2) (value : α) :
    make ((values.set i value i.isLt).get 0) ((values.set i value i.isLt).get 1) =
      match i with
      | 0 => make value (values.get 1)
      | 1 => make (values.get 0) value := by
  match i with
  | 0 => rw [Shape.get_set_self, Shape.get_set_of_ne values (by decide)]
  | 1 => rw [Shape.get_set_self, Shape.get_set_of_ne values (by decide)]

theorem Reading.withField_eq (values : Vector UInt64 2) (i : Fin 2) (word : UInt64) :
    (⟨(values.set i word i.isLt).get 0, (values.set i word i.isLt).get 1⟩ : Reading) =
      withField ⟨values.get 0, values.get 1⟩ i word := by
  rw [make_set_pair Reading.mk]
  match i with
  | 0 => rfl
  | 1 => rfl

theorem Threshold.withField_eq (values : Vector UInt64 2) (i : Fin 2) (word : UInt64) :
    (⟨(values.set i word i.isLt).get 0, (values.set i word i.isLt).get 1⟩ : Threshold) =
      withField ⟨values.get 0, values.get 1⟩ i word := by
  rw [make_set_pair Threshold.mk]
  match i with
  | 0 => rfl
  | 1 => rfl

theorem Profile.withField_eq {values : Vector (Array Reading) 1} {k : Nat} {r : Reading}
    (found : (values.get 0)[k]? = some r) (i : Fin 2) (word : UInt64) :
    (⟨(values.set (0 : Fin 1) ((values.get 0).setIfInBounds k (r.withField i word))
      (0 : Fin 1).isLt).get 0⟩ : Profile) = withField ⟨values.get 0⟩ k i word := by
  have changed : (values.get 0).toList.modify k (fun r => r.withField i word) =
      ((values.get 0).setIfInBounds k (r.withField i word)).toList := by
    rw [List.modify_eq_set_getElem?, Array.getElem?_toList, found, Array.toList_setIfInBounds]
    rfl
  rw [withField, toList, changed, ofList, Array.toArray_toList]
  exact congrArg Profile.mk (Shape.get_set_self values 0 _)

section Gaps

variable {i : Fin 2} {fill : Tokens → Tokens} {sample : Tokens}

theorem Reading.gap (g : Reading.shape.FieldGap i fill) (hv : IsValue sample) {r : Reading}
    (h : Reading.reader.Accepts (fill sample) r) :
    Reader.Gap .word Reading.reader fill (r.withField i) := by
  obtain ⟨values, rfl, -, gap⟩ := g.gap_map Reading.wellNamed_shape Reader.settled_word hv h
  exact gap.congr (Reading.withField_eq values i)

theorem Threshold.gap (g : Threshold.shape.FieldGap i fill) (hv : IsValue sample) {t : Threshold}
    (h : Threshold.reader.Accepts (fill sample) t) :
    Reader.Gap .word Threshold.reader fill (t.withField i) := by
  obtain ⟨values, rfl, -, gap⟩ := g.gap_map Threshold.wellNamed_shape Reader.settled_word hv h
  exact gap.congr (Threshold.withField_eq values i)

/-- A profile with a gap has the reading that the gap is in. -/
theorem Profile.gap {k : Nat} (g : Profile.FieldGap k i fill) (hv : IsValue sample) {p : Profile}
    (h : Profile.reader.Accepts (fill sample) p) :
    k < p.length ∧ Reader.Gap .word Profile.reader fill (p.withField k i) := by
  cases g with
  | @within whole list reading inProfile inList inReading =>
    have hreading := inReading.isValue hv
    have hlist := inList.isValue hreading
    obtain ⟨values, rfl, acceptedList, profileGap⟩ :=
      inProfile.gap_map Profile.wellNamed_shape Reading.settled_reader.list hlist h
    obtain ⟨⟨r, acceptedReading, found⟩, listGap⟩ :=
      inList.gap Reading.settled_reader hreading acceptedList
    have readingGap := Reading.gap inReading hv acceptedReading
    refine ⟨(Array.getElem?_eq_some_iff.1 found).1, ?_⟩
    exact ((readingGap.comp listGap).comp profileGap).congr (Profile.withField_eq found i)

end Gaps

/-- **Sizes are read exactly or refused.** In a threshold or a profile that is valid but for the
number of one field, whatever stands around it, the number is read as the word that it is, if it is
one, and the rest as it was. The text is refused if the number has a sign, a fraction or an exponent,
if it is 2^64 or more, and if a needless 0 stands in front of it. -/
theorem sizes_read_exactly :
    (∀ {i : Fin 2} {fill : Tokens → Tokens} {valid : Threshold},
      Threshold.shape.FieldGap i fill → Threshold.reader.ValidBut fill valid →
      Threshold.reader.ReadsExactly fill (valid.withField i)) ∧
    ∀ {k : Nat} {i : Fin 2} {fill : Tokens → Tokens} {valid : Profile},
      Profile.FieldGap k i fill → Profile.reader.ValidBut fill valid →
      k < valid.length ∧ Profile.reader.ReadsExactly fill (valid.withField k i) := by
  constructor
  · rintro i fill valid g ⟨sample, text, hv, ht, h⟩
    have accepted := (Threshold.settled_reader.settles (g.isValue hv)).accepts_of_decode ht h
    exact (Threshold.gap g hv accepted).readsExactly
  · rintro k i fill valid g ⟨sample, text, hv, ht, h⟩
    have accepted := (Profile.settled_reader.settles (g.isValue hv)).accepts_of_decode ht h
    obtain ⟨inside, gap⟩ := Profile.gap g hv accepted
    exact ⟨inside, gap.readsExactly⟩

/-- The greatest word and the number after it in a threshold; minus zero and a needless 0 in a
profile. -/
theorem sizes_read_exactly_at_bound :
    let threshold (number : String) : Bytes := ascii ("\x7b\"min_size\":" ++ number ++ "\x7d")
    let profile (number : String) : Bytes :=
      ascii ("\x7b\"slots\":[[1,2],\x7b\"index\":5,\"size\":" ++ number ++ "\x7d]\x7d")
    Threshold.reader.decode (threshold "18446744073709551615") =
      .ok ⟨18446744073709551615, ({} : Threshold).growthFactor⟩ ∧
    (¬ ∃ value, Threshold.reader.decode (threshold "18446744073709551616") = .ok value) ∧
    (¬ ∃ value, Profile.reader.decode (profile "-0") = .ok value) ∧
    ∃ refusal, Profile.reader.decode (profile "007") = .error refusal := by
  intro threshold profile
  let inThreshold (part : Tokens) : Tokens := objectTokens ([] ++ ⟨ascii "min_size", part⟩ :: [])
  let inReading (part : Tokens) : Tokens :=
    objectTokens ([⟨ascii "index", writeWord 5⟩] ++ ⟨ascii "size", part⟩ :: [])
  let inList (part : Tokens) : Tokens :=
    listTokens ([listTokens [writeWord 1, writeWord 2]] ++ part :: [])
  let inProfile (part : Tokens) : Tokens :=
    objectTokens ([] ++ ⟨ascii "slots", inList (inReading part)⟩ :: [])
  have thresholdGap : Threshold.shape.FieldGap 0 inThreshold :=
    .member (spells_iff.2 (by decide +kernel)) (by simp)
  have profileGap : Profile.FieldGap 1 1 inProfile := by
    refine .within (.member (spells_iff.2 (by decide +kernel)) (by simp)) (.among rfl ?_)
      (.member (spells_iff.2 (by decide +kernel)) ?_)
    · exact List.forall_mem_singleton.2 (IsValue.list (List.forall_mem_cons.2
        ⟨isValue_writeWord 1, List.forall_mem_singleton.2 (isValue_writeWord 2)⟩))
    · exact List.forall_mem_singleton.2
        ⟨(spells_of_isPlain (by decide +kernel)).isContent, isValue_writeWord 5⟩
  have zeroThreshold : Threshold.reader.ValidBut inThreshold ⟨0, ({} : Threshold).growthFactor⟩ :=
    ⟨writeWord 0, _, isValue_writeWord 0, spaced_compact _, by decide +kernel⟩
  have zeroProfile : Profile.reader.ValidBut inProfile ⟨#[⟨1, 2⟩, ⟨5, 0⟩]⟩ :=
    ⟨writeWord 0, _, isValue_writeWord 0, spaced_compact _, by decide +kernel⟩
  have thresholds := sizes_read_exactly.1 thresholdGap zeroThreshold
  obtain ⟨-, profiles⟩ := sizes_read_exactly.2 profileGap zeroProfile
  let greatest : Numeral := ⟨false, ascii "18446744073709551615", [], none⟩
  let next : Numeral := ⟨false, ascii "18446744073709551616", [], none⟩
  let minusZero : Numeral := ⟨true, ascii "0", [], none⟩
  have greatest_wellFormed : greatest.WellFormed :=
    ⟨by decide +kernel, by decide +kernel, by decide +kernel, by decide +kernel, by simp⟩
  have next_wellFormed : next.WellFormed :=
    ⟨by decide +kernel, by decide +kernel, by decide +kernel, by decide +kernel, by simp⟩
  have minusZero_wellFormed : minusZero.WellFormed :=
    ⟨by decide +kernel, by decide +kernel, fun _ => rfl, by decide +kernel, by simp⟩
  have texts : compact (inThreshold [greatest.write]) = threshold "18446744073709551615" ∧
      compact (inThreshold [next.write]) = threshold "18446744073709551616" ∧
      compact (inProfile [minusZero.write]) = profile "-0" ∧
      compact (inProfile [Reader.zeroPadded false 0x30 [0x37]]) = profile "007" := by
    decide +kernel
  obtain ⟨atMost, above, negative, padded⟩ := texts
  rw [← atMost, ← above, ← negative, ← padded]
  refine ⟨?_, fun h => ?_, fun h => ?_, profiles.refuses_zeroPadded rfl (spaced_compact _)⟩
  · obtain ⟨value, h⟩ := (thresholds.reads_iff greatest_wellFormed (spaced_compact _)).2
      ⟨⟨rfl, rfl, rfl⟩, by decide +kernel⟩
    obtain ⟨word, exact, rfl⟩ := thresholds.eq_make greatest_wellFormed (spaced_compact _) h
    have magnitude : greatest.magnitude = (18446744073709551615 : UInt64).toNat := by
      decide +kernel
    rw [h, UInt64.toNat_inj.1 (exact.trans magnitude)]
    rfl
  · obtain ⟨-, small⟩ := (thresholds.reads_iff next_wellFormed (spaced_compact _)).1 h
    exact absurd small (by decide +kernel)
  · obtain ⟨⟨positive, -⟩, -⟩ :=
      (profiles.reads_iff minusZero_wellFormed (spaced_compact _)).1 h
    cases positive

end HeapWatch
