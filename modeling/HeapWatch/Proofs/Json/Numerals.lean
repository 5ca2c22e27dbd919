import HeapWatch.Json.Numeral
/-!
# Numbers are scanned as they were written

A numeral that the grammar allows is found again at the front of any text that does not go on with
what could be more of it.
-/

namespace HeapWatch.Json

namespace Byte

theorem ne_of_isDigit {b c : UInt8} (hb : isDigit b) (hc : isDigit c = false) : b ≠ c := by
  rintro rfl
  rw [hc] at hb
  exact Bool.false_ne_true hb

theorem isDigit_of_isExponentMark {b : UInt8} (h : isExponentMark b) : isDigit b = false := by
  simp only [isExponentMark, Bool.or_eq_true, beq_iff_eq] at h
  rcases h with rfl | rfl <;> rfl

end Byte

namespace Numeral

/-- What does not start with a digit. -/
def EndsDigits (rest : Bytes) : Prop := ∀ b ∈ rest.head?, Byte.isDigit b = false

/-- What starts neither with a digit nor with a point or an exponent. -/
def EndsNumber (rest : Bytes) : Prop :=
  ∀ b ∈ rest.head?, Byte.isDigit b = false ∧ b ≠ Byte.point ∧ Byte.isExponentMark b = false

theorem EndsNumber.endsDigits {rest : Bytes} (h : EndsNumber rest) : EndsDigits rest :=
  fun b hb => (h b hb).1

/-! ## The parts of a numeral -/

theorem spanDigits_append {digits rest : Bytes} (hd : ∀ b ∈ digits, Byte.isDigit b)
    (hr : EndsDigits rest) : spanDigits (digits ++ rest) = (digits, rest) := by
  induction digits with
  | nil =>
    cases rest with
    | nil => rfl
    | cons b rest => simp [spanDigits, hr b rfl]
  | cons b digits ih =>
    have ih := ih fun c hc => hd c (List.mem_cons_of_mem _ hc)
    simp only [spanDigits, Prod.mk.injEq] at ih
    simp [spanDigits, hd b List.mem_cons_self, ih]

theorem scanWhole_append (atEnd : Cause) {whole rest : Bytes} (hne : whole ≠ [])
    (hd : ∀ b ∈ whole, Byte.isDigit b)
    (hz : whole.head? = some Byte.zero → whole = [Byte.zero]) (hr : EndsDigits rest) :
    scanWhole atEnd (whole ++ rest) = .ok (whole, rest) := by
  cases whole with
  | nil => exact absurd rfl hne
  | cons b digits =>
    by_cases hb : b = Byte.zero
    · subst hb
      obtain rfl : digits = [] := (List.cons.inj (hz rfl)).2
      cases rest with
      | nil => rfl
      | cons c rest => simp [scanWhole, hr c rfl]
    · have hd' : ∀ c ∈ digits, Byte.isDigit c := fun c hc => hd c (List.mem_cons_of_mem _ hc)
      simp [scanWhole, hb, hd b List.mem_cons_self, spanDigits_append hd' hr]

theorem scanFraction_append (atEnd : Cause) {fraction rest : Bytes}
    (hd : ∀ b ∈ fraction, Byte.isDigit b) (hr : EndsDigits rest)
    (hp : fraction = [] → ∀ b ∈ rest.head?, b ≠ Byte.point) :
    scanFraction atEnd ((if fraction = [] then [] else Byte.point :: fraction) ++ rest) =
      .ok (fraction, rest) := by
  by_cases hf : fraction = []
  · rw [if_pos hf, List.nil_append, hf]
    cases rest with
    | nil => rfl
    | cons b rest => simp [scanFraction, hp hf b rfl]
  · rw [if_neg hf]
    simp [scanFraction, spanDigits_append hd hr, hf]

theorem scanSign_append {sign : Option UInt8} {digits : Bytes}
    (hs : ∀ b ∈ sign, b = Byte.plus ∨ b = Byte.minus)
    (hd : ∀ b ∈ digits.head?, Byte.isDigit b) :
    scanSign (sign.toList ++ digits) = (sign, digits) := by
  cases sign with
  | some b => simp [scanSign, hs b rfl]
  | none =>
    cases digits with
    | nil => rfl
    | cons b digits =>
      have hplus : b ≠ Byte.plus := Byte.ne_of_isDigit (hd b rfl) rfl
      have hminus : b ≠ Byte.minus := Byte.ne_of_isDigit (hd b rfl) rfl
      simp [scanSign, hplus, hminus]

/-- The bytes of an exponent, if there is one. -/
def exponentBytes : Option Exponent → Bytes
  | some e => e.write
  | none => []

theorem scanExponent_append (atEnd : Cause) {exponent : Option Exponent} {rest : Bytes}
    (he : ∀ e ∈ exponent, e.WellFormed) (hr : EndsNumber rest) :
    scanExponent atEnd (exponentBytes exponent ++ rest) = .ok (exponent, rest) := by
  cases exponent with
  | none =>
    cases rest with
    | nil => rfl
    | cons b rest => simp [exponentBytes, scanExponent, (hr b rfl).2.2]
  | some e =>
    obtain ⟨mark, sign, digits⟩ := e
    obtain ⟨hm, hs, hne, hd⟩ := he _ rfl
    dsimp only at hm hs hne hd
    cases digits with
    | nil => exact absurd rfl hne
    | cons b digits =>
      have hb : ∀ c ∈ (b :: digits ++ rest).head?, Byte.isDigit c := by
        rintro c ⟨⟩
        exact hd b List.mem_cons_self
      have hd' : ∀ c ∈ digits, Byte.isDigit c := fun c hc => hd c (List.mem_cons_of_mem _ hc)
      have hsign := scanSign_append hs hb
      rw [List.cons_append] at hsign
      simp [exponentBytes, Exponent.write, scanExponent, hm, hsign, hd b List.mem_cons_self,
        spanDigits_append hd' hr.endsDigits]

/-! ## Whole numerals -/

theorem write_eq (n : Numeral) (rest : Bytes) :
    n.write ++ rest = (if n.negative then [Byte.minus] else []) ++ (n.whole ++
      ((if n.fraction = [] then [] else Byte.point :: n.fraction) ++
        (exponentBytes n.exponent ++ rest))) := by
  rw [write]
  cases n.exponent <;> simp only [exponentBytes, List.append_assoc]

/-- What follows the fraction of a numeral starts with an exponent or ends the number. -/
theorem endsDigits_exponentBytes {exponent : Option Exponent} {rest : Bytes}
    (he : ∀ e ∈ exponent, e.WellFormed) (hr : EndsNumber rest) :
    ∀ b ∈ (exponentBytes exponent ++ rest).head?, Byte.isDigit b = false ∧ b ≠ Byte.point := by
  intro b hb
  cases exponent with
  | none => exact ⟨(hr b hb).1, (hr b hb).2.1⟩
  | some e =>
    obtain rfl : e.mark = b := Option.some.inj hb
    have hm := (he e rfl).1
    refine ⟨Byte.isDigit_of_isExponentMark hm, ?_⟩
    intro hp
    rw [hp] at hm
    exact absurd hm (by decide)

theorem scanMinus_append {negative : Bool} {s : Bytes} (hs : ∀ b ∈ s.head?, Byte.isDigit b) :
    scanMinus ((if negative then [Byte.minus] else []) ++ s) = (negative, s) := by
  cases negative with
  | true => rfl
  | false =>
    cases s with
    | nil => rfl
    | cons b s =>
      have hminus : b ≠ Byte.minus := Byte.ne_of_isDigit (hs b rfl) rfl
      simp [scanMinus, hminus]

theorem exists_write_eq_cons {n : Numeral} (hn : n.WellFormed) :
    ∃ b token, n.write = b :: token ∧ (b = Byte.minus ∨ Byte.isDigit b) := by
  obtain ⟨hne, hd, -⟩ := hn
  obtain ⟨b, digits, hw⟩ := List.exists_cons_of_ne_nil hne
  have whole := write_eq n []
  rw [List.append_nil, hw] at whole
  cases hneg : n.negative with
  | true => exact ⟨Byte.minus, _, by rw [whole, hneg]; rfl, Or.inl rfl⟩
  | false => exact ⟨b, _, by rw [whole, hneg]; rfl, Or.inr (hd b (hw ▸ List.mem_cons_self))⟩

/-- **A numeral is scanned as it was written**, whatever comes after it that does not belong to a
number. -/
theorem scan_write (atEnd : Cause) {n : Numeral} {rest : Bytes} (hn : n.WellFormed)
    (hr : EndsNumber rest) : scan atEnd (n.write ++ rest) = .ok (n, rest) := by
  obtain ⟨hne, hd, hz, hf, he⟩ := hn
  have after := endsDigits_exponentBytes he hr
  have fraction := scanFraction_append atEnd hf (fun b hb => (after b hb).1)
    fun _ b hb => (after b hb).2
  have ends : EndsDigits ((if n.fraction = [] then [] else Byte.point :: n.fraction) ++
      (exponentBytes n.exponent ++ rest)) := by
    by_cases hfr : n.fraction = []
    · rw [if_pos hfr, List.nil_append]
      exact fun b hb => (after b hb).1
    · rw [if_neg hfr]
      rintro b ⟨⟩
      rfl
  have whole := scanWhole_append atEnd hne hd hz ends
  have head : ∀ b ∈ (n.whole ++ ((if n.fraction = [] then [] else Byte.point :: n.fraction) ++
      (exponentBytes n.exponent ++ rest))).head?, Byte.isDigit b := by
    intro b hb
    obtain ⟨c, digits, hw⟩ := List.exists_cons_of_ne_nil hne
    rw [hw] at hb
    obtain rfl : c = b := Option.some.inj hb
    exact hd c (hw ▸ List.mem_cons_self)
  rw [write_eq, scan, scanMinus_append head]
  dsimp only
  rw [whole]
  dsimp only
  rw [fraction]
  dsimp only
  rw [scanExponent_append atEnd he hr]

/-! ## Whole numbers -/

/-- A whole number as a numeral, in decimal digits and nothing else. -/
def ofWord (value : UInt64) : Numeral where
  negative := false
  whole := (Digits.ofNat 10 value.toNat).map Digits.toByte
  fraction := []
  exponent := none

theorem toNat_toByte {d : Nat} (hd : d < 10) : (Digits.toByte d).toNat = 48 + d := by
  simp only [Digits.toByte, UInt8.toNat_add, Nat.toUInt8_eq, UInt8.toNat_ofNat']
  have : (48 : UInt8).toNat = 48 := rfl
  omega

theorem isDigit_toByte {d : Nat} (hd : d < 10) : Byte.isDigit (Digits.toByte d) := by
  simp only [Byte.isDigit, Bool.and_eq_true, decide_eq_true_eq, UInt8.le_iff_toNat_le,
    toNat_toByte hd]
  have : (0x30 : UInt8).toNat = 48 := rfl
  have : (0x39 : UInt8).toNat = 57 := rfl
  omega

theorem digitValue_toByte {d : Nat} (hd : d < 10) : digitValue (Digits.toByte d) = d := by
  rw [digitValue, toNat_toByte hd, Nat.add_sub_cancel_left]

theorem wellFormed_ofWord (value : UInt64) : (ofWord value).WellFormed := by
  have ten : 2 ≤ 10 := by decide
  have digits : ∀ d ∈ Digits.ofNat 10 value.toNat, d < 10 := fun d hd =>
    Digits.lt_of_mem_ofNat ten hd
  refine ⟨?_, ?_, ?_, fun b hb => absurd hb List.not_mem_nil, fun e he => nomatch he⟩
  · exact fun h => Digits.ofNat_ne_nil _ _ (List.map_eq_nil_iff.1 h)
  · intro b hb
    obtain ⟨d, hd, rfl⟩ := List.mem_map.1 hb
    exact isDigit_toByte (digits d hd)
  · intro hz
    obtain ⟨d, rest, hd⟩ := List.exists_cons_of_ne_nil (Digits.ofNat_ne_nil 10 value.toNat)
    have hzero : d = 0 := by
      have hlt : d < 10 := digits d (hd ▸ List.mem_cons_self)
      rw [ofWord, hd] at hz
      have hbyte := congrArg UInt8.toNat (Option.some.inj hz)
      rw [toNat_toByte hlt] at hbyte
      exact Nat.add_left_cancel hbyte
    have hv : value.toNat = 0 := Digits.eq_zero_of_head_ofNat ten (by rw [hd, hzero]; rfl)
    rw [ofWord, hv]
    simp [Digits.ofNat, Digits.toByte]

theorem quantity_ofWord (value : UInt64) : (ofWord value).quantity = .ok (.natural value) := by
  have magnitude : Digits.toNat 10 ((ofWord value).whole.map digitValue) = value.toNat := by
    have same : (ofWord value).whole.map digitValue = Digits.ofNat 10 value.toNat := by
      rw [ofWord, List.map_map]
      refine (List.map_congr_left fun d hd => ?_).trans (List.map_id _)
      exact digitValue_toByte (Digits.lt_of_mem_ofNat (by decide) hd)
    rw [same, Digits.toNat_ofNat]
  have plain : (ofWord value).fraction = [] ∧ (ofWord value).exponent = none ∧
      value.toNat < UInt64.size ∧ !(ofWord value).negative := ⟨rfl, rfl, value.toNat_lt, rfl⟩
  rw [quantity, magnitude, if_pos plain]
  exact congrArg (fun v => Except.ok (Quantity.natural v)) UInt64.ofNat_toNat

end Numeral

end HeapWatch.Json
