import HeapWatch.Proofs.Json.Accepts
/-!
# The grammar of values

What a JSON value is, said without a reader. A value is a word, a number, a string, or a list or an
object of values, to any depth, and it is told by its tokens, so that blanks are not spoken of. Of a
string there are two things to say: that it is one, and which bytes it spells. A string may be one
and spell nothing, since an escape may give half of a surrogate pair.
-/

namespace HeapWatch.Json

/-! ## Strings -/

/-- A byte that stands for itself in a string. -/
def StandsForItself (b : UInt8) : Prop :=
  b ≠ Byte.quote ∧ b ≠ Byte.backslash ∧ Byte.isControl b = false

/-- Four hexadecimal digits and the code unit that they give. -/
inductive GivesUnit : Bytes → Nat → Prop where
  | digits {a b c d : UInt8} {va vb vc vd : Nat} (ha : Byte.hexValue? a = some va)
      (hb : Byte.hexValue? b = some vb) (hc : Byte.hexValue? c = some vc)
      (hd : Byte.hexValue? d = some vd) :
      GivesUnit [a, b, c, d] (Digits.toNat 16 [va, vb, vc, vd])

/-- **The inside of a string**: bytes that stand for themselves, and escapes. -/
inductive IsContent : Bytes → Prop where
  | nil : IsContent []
  | byte {b : UInt8} {content : Bytes} (h : StandsForItself b) (rest : IsContent content) :
      IsContent (b :: content)
  | letter {letter : UInt8} {content : Bytes} (h : (escaped? letter).isSome)
      (rest : IsContent content) : IsContent (Byte.backslash :: letter :: content)
  | unit {digits content : Bytes} {unit : Nat} (h : GivesUnit digits unit)
      (rest : IsContent content) :
      IsContent (Byte.backslash :: unitLetter :: (digits ++ content))

/-- **The bytes that the inside of a string spells.** A code unit that is half of a surrogate pair
spells nothing without the other half. -/
inductive Spells : Bytes → Bytes → Prop where
  | nil : Spells [] []
  | byte {b : UInt8} {content text : Bytes} (h : StandsForItself b) (rest : Spells content text) :
      Spells (b :: content) (b :: text)
  | letter {letter b : UInt8} {content text : Bytes} (h : escaped? letter = some b)
      (rest : Spells content text) : Spells (Byte.backslash :: letter :: content) (b :: text)
  | unit {digits content text : Bytes} {unit : Nat} (h : GivesUnit digits unit)
      (hhigh : isHighSurrogate unit = false) (hlow : isLowSurrogate unit = false)
      (rest : Spells content text) :
      Spells (Byte.backslash :: unitLetter :: (digits ++ content))
        (Text.Utf8.encodeCode unit ++ text)
  | pair {digits digits' content text : Bytes} {high low : Nat} (h : GivesUnit digits high)
      (h' : GivesUnit digits' low) (hhigh : isHighSurrogate high) (hlow : isLowSurrogate low)
      (rest : Spells content text) :
      Spells (Byte.backslash :: unitLetter ::
          (digits ++ Byte.backslash :: unitLetter :: (digits' ++ content)))
        (Text.Utf8.encodeCode (joinSurrogates high low) ++ text)

/-- What spells something is the inside of a string. -/
theorem Spells.isContent {content text : Bytes} (h : Spells content text) : IsContent content := by
  induction h with
  | nil => exact IsContent.nil
  | byte h _ ih => exact IsContent.byte h ih
  | letter h _ ih => exact IsContent.letter (h ▸ rfl) ih
  | unit h _ _ _ ih => exact IsContent.unit h ih
  | pair h h' _ _ _ ih => exact IsContent.unit h (IsContent.unit h' ih)

theorem spells_of_isPlain {bytes : Bytes} (h : IsPlain bytes) : Spells bytes bytes := by
  induction bytes with
  | nil => exact Spells.nil
  | cons b bytes ih =>
    obtain ⟨hb, hrest⟩ := List.forall_mem_cons.1 h
    exact Spells.byte hb (ih hrest)

/-! ### Escapes -/

/-- **A code unit is scanned** from its digits and no others. -/
theorem scanUnit_eq_ok_iff {s rest : Bytes} {unit : Nat} :
    scanUnit s = .ok (unit, rest) ↔ ∃ digits, GivesUnit digits unit ∧ s = digits ++ rest := by
  constructor
  · fun_cases scanUnit s with
    | case1 a b c d s va vb vc vd hd hc hb ha =>
      intro h
      cases h
      refine ⟨[a, b, c, d], ?_, rfl⟩
      have unit : Digits.toNat 16 [va, vb, vc, vd] = ((va * 16 + vb) * 16 + vc) * 16 + vd := by
        simp [Digits.toNat]
      exact unit ▸ GivesUnit.digits ha hb hc hd
    | case2 => simp
    | case3 => simp
  · rintro ⟨digits, h, rfl⟩
    cases h with
    | digits ha hb hc hd => simp [scanUnit, ha, hb, hc, hd, Digits.toNat]

theorem scanUnit_append {digits : Bytes} {unit : Nat} (h : GivesUnit digits unit) (s : Bytes) :
    scanUnit (digits ++ s) = .ok (unit, s) := scanUnit_eq_ok_iff.2 ⟨digits, h, rfl⟩

theorem scanPairByte_eq_ok_iff {wanted : UInt8} {s rest : Bytes} :
    scanPairByte wanted s = .ok rest ↔ s = wanted :: rest := by
  cases s with
  | nil => simp [scanPairByte]
  | cons b s => by_cases h : b = wanted <;> simp [scanPairByte, h]

/-- **The second half of a surrogate pair** is scanned from an escape of its own. -/
theorem scanSecondHalf_eq_ok_iff {high code : Nat} {s rest : Bytes} :
    scanSecondHalf high s = .ok (code, rest) ↔ ∃ digits low, GivesUnit digits low ∧
      isLowSurrogate low = true ∧ code = joinSurrogates high low ∧
      s = Byte.backslash :: unitLetter :: (digits ++ rest) := by
  constructor
  · fun_cases scanSecondHalf high s with
    | case1 => simp
    | case2 => simp
    | case3 => simp
    | case4 s₁ h₁ s₂ h₂ low s₃ h₃ hlow =>
      intro h
      obtain ⟨rfl, rfl⟩ := Prod.mk.inj (Except.ok.inj h)
      obtain ⟨digits, hd, rfl⟩ := scanUnit_eq_ok_iff.1 h₃
      obtain rfl := scanPairByte_eq_ok_iff.1 h₂
      obtain rfl := scanPairByte_eq_ok_iff.1 h₁
      exact ⟨digits, low, hd, hlow, rfl, rfl⟩
    | case5 => simp
  · rintro ⟨digits, low, hd, hlow, hcode, hs⟩
    rw [hs, hcode, scanSecondHalf, scanPairByte_eq_ok_iff.2 rfl]
    dsimp only
    rw [scanPairByte_eq_ok_iff.2 rfl]
    dsimp only
    rw [scanUnit_append hd]
    dsimp only
    rw [if_pos hlow]

theorem ne_unitLetter_of_escaped {letter : UInt8} (h : (escaped? letter).isSome) :
    letter ≠ unitLetter := by
  rintro rfl
  exact Bool.false_ne_true h

theorem scanEscape_letter {letter b : UInt8} (h : escaped? letter = some b) (s : Bytes) :
    scanEscape (letter :: s) = .ok ([b], s) := by
  rw [scanEscape, if_neg (ne_unitLetter_of_escaped (h ▸ rfl)), h]

theorem scanEscape_unit {digits : Bytes} {unit : Nat} (h : GivesUnit digits unit)
    (hhigh : isHighSurrogate unit = false) (hlow : isLowSurrogate unit = false) (s : Bytes) :
    scanEscape (unitLetter :: (digits ++ s)) = .ok (Text.Utf8.encodeCode unit, s) := by
  rw [scanEscape, if_pos rfl, scanCode, scanUnit_append h]
  simp [hhigh, hlow]

theorem scanEscape_pair {digits digits' : Bytes} {high low : Nat} (h : GivesUnit digits high)
    (h' : GivesUnit digits' low) (hhigh : isHighSurrogate high) (hlow : isLowSurrogate low)
    (s : Bytes) :
    scanEscape (unitLetter :: (digits ++ Byte.backslash :: unitLetter :: (digits' ++ s))) =
      .ok (Text.Utf8.encodeCode (joinSurrogates high low), s) := by
  have second : scanSecondHalf high (Byte.backslash :: unitLetter :: (digits' ++ s)) =
      .ok (joinSurrogates high low, s) :=
    scanSecondHalf_eq_ok_iff.2 ⟨digits', low, h', hlow, rfl, rfl⟩
  have first : isLowSurrogate high = false := by
    simp only [isHighSurrogate, isLowSurrogate, Bool.and_eq_true, decide_eq_true_eq,
      Bool.and_eq_false_iff, decide_eq_false_iff_not] at hhigh ⊢
    omega
  rw [scanEscape, if_pos rfl, scanCode, scanUnit_append h]
  simp [first, hhigh, second]

/-- **What an escape spells**, in front of anything else. -/
theorem spells_of_scanEscape {s rest decoded : Bytes} (h : scanEscape s = .ok (decoded, rest)) :
    ∃ letters, s = letters ++ rest ∧ ∀ {content text : Bytes}, Spells content text →
      Spells (Byte.backslash :: (letters ++ content)) (decoded ++ text) := by
  revert h
  fun_cases scanEscape s with
  | case1 => simp
  | case2 => simp
  | case3 s code s₁ h₁ =>
    intro h
    obtain ⟨rfl, rfl⟩ := Prod.mk.inj (Except.ok.inj h)
    revert h₁
    fun_cases scanCode s with
    | case1 => simp
    | case2 => simp
    | case3 unit s₂ h₂ hlow hhigh =>
      intro h₁
      obtain ⟨digits, hd, rfl⟩ := scanUnit_eq_ok_iff.1 h₂
      obtain ⟨digits', low, hd', hlow', hcode, rfl⟩ := scanSecondHalf_eq_ok_iff.1 h₁
      refine ⟨unitLetter :: (digits ++ Byte.backslash :: unitLetter :: digits'), by simp, ?_⟩
      intro content text hc
      rw [hcode]
      simpa using Spells.pair hd hd' hhigh hlow' hc
    | case4 unit s₂ h₂ hlow hhigh =>
      intro h₁
      obtain ⟨rfl, rfl⟩ := Prod.mk.inj (Except.ok.inj h₁)
      obtain ⟨digits, hd, rfl⟩ := scanUnit_eq_ok_iff.1 h₂
      refine ⟨unitLetter :: digits, rfl, fun hc => ?_⟩
      exact Spells.unit hd (Bool.eq_false_iff.2 hhigh) (Bool.eq_false_iff.2 hlow) hc
  | case4 letter s _ b hb =>
    intro h
    obtain ⟨rfl, rfl⟩ := Prod.mk.inj (Except.ok.inj h)
    exact ⟨[letter], rfl, fun hc => Spells.letter hb hc⟩
  | case5 => simp

/-! ### Whole strings -/

theorem scanText_escape {s s' decoded text rest : Bytes} (h : scanEscape s = .ok (decoded, s'))
    (ht : scanText s' = .ok (text, rest)) :
    scanText (Byte.backslash :: s) = .ok (decoded ++ text, rest) := by
  have slash : Byte.backslash ≠ Byte.quote := by decide
  rw [scanText, if_neg slash, if_pos rfl]
  split <;> simp_all

/-- **A string is scanned** exactly if it spells something, and then up to its end. -/
theorem scanText_eq_ok_iff {s text rest : Bytes} :
    scanText s = .ok (text, rest) ↔
      ∃ content, Spells content text ∧ s = content ++ Byte.quote :: rest := by
  constructor
  · intro h
    fun_induction scanText s generalizing text rest with
    | case1 => simp at h
    | case2 s =>
      obtain ⟨rfl, rfl⟩ := Prod.mk.inj (Except.ok.inj h)
      exact ⟨[], Spells.nil, rfl⟩
    | case3 => simp at h
    | case4 => simp_all
    | case5 s decoded s' hs _ text' rest' hr _ ih =>
      obtain ⟨rfl, rfl⟩ := Prod.mk.inj (Except.ok.inj h)
      obtain ⟨content, hc, rfl⟩ := ih hr
      obtain ⟨letters, rfl, spells⟩ := spells_of_scanEscape hs
      exact ⟨_, spells hc, by simp⟩
    | case6 => simp at h
    | case7 => simp_all
    | case8 b s hquote hslash hcontrol text' rest' hr ih =>
      obtain ⟨rfl, rfl⟩ := Prod.mk.inj (Except.ok.inj h)
      obtain ⟨content, hc, rfl⟩ := ih hr
      exact ⟨b :: content, Spells.byte ⟨hquote, hslash, Bool.eq_false_iff.2 hcontrol⟩ hc, rfl⟩
  · rintro ⟨content, h, rfl⟩
    induction h with
    | nil => simp [scanText]
    | byte h _ ih => simp [scanText, h.1, h.2.1, h.2.2, ih]
    | letter h _ ih => exact scanText_escape (scanEscape_letter h _) ih
    | unit h hhigh hlow _ ih =>
      simpa using scanText_escape (scanEscape_unit h hhigh hlow _) ih
    | pair h h' hhigh hlow _ ih =>
      simpa using scanText_escape (scanEscape_pair h h' hhigh hlow _) ih

theorem scanText_append {content text : Bytes} (h : Spells content text) (s : Bytes) :
    scanText (content ++ Byte.quote :: s) = .ok (text, s) := scanText_eq_ok_iff.2 ⟨content, h, rfl⟩

/-- What the inside of a string spells can be computed. -/
theorem spells_iff {content text : Bytes} :
    Spells content text ↔ scanText (content ++ [Byte.quote]) = .ok (text, []) := by
  refine ⟨fun h => scanText_append h [], fun h => ?_⟩
  obtain ⟨content', hs, e⟩ := scanText_eq_ok_iff.1 h
  exact List.append_cancel_right e ▸ hs

theorem Spells.unique {content text text' : Bytes} (h : Spells content text)
    (h' : Spells content text') : text = text' :=
  (Prod.mk.inj (Except.ok.inj ((scanText_append h []).symm.trans (scanText_append h' [])))).1

theorem skipText_escape {s s' : Bytes} (h : skipEscape s = .ok s') :
    skipText (Byte.backslash :: s) = skipText s' := by
  have slash : Byte.backslash ≠ Byte.quote := by decide
  rw [skipText, if_neg slash, if_pos rfl]
  split <;> simp_all

/-- **A string is passed over** up to its end. -/
theorem skipText_append {content : Bytes} (h : IsContent content) (s : Bytes) :
    skipText (content ++ Byte.quote :: s) = .ok s := by
  induction h with
  | nil => simp [skipText]
  | byte h _ ih => simp [skipText, h.1, h.2.1, h.2.2, ih]
  | @letter letter content h _ ih =>
    have passed (s : Bytes) : skipEscape (letter :: s) = .ok s := by
      rw [skipEscape, if_neg (ne_unitLetter_of_escaped h), if_pos h]
    exact (skipText_escape (passed _)).trans ih
  | @unit digits content unit h _ ih =>
    have passed (s : Bytes) : skipEscape (unitLetter :: (digits ++ s)) = .ok s := by
      rw [skipEscape, if_pos rfl, scanUnit_append h]
    rw [List.cons_append, List.cons_append, List.append_assoc, skipText_escape (passed _), ih]

/-- What is scanned of a string is what it spells, to its end and no further. -/
theorem spells_of_scanText {content s text rest : Bytes} (hc : IsContent content)
    (h : scanText (content ++ Byte.quote :: s) = .ok (text, rest)) :
    Spells content text ∧ rest = s := by
  obtain ⟨content', hs, e⟩ := scanText_eq_ok_iff.1 h
  -- passing over the string tells where it ends
  have passed := skipText_append hc s
  rw [e, skipText_append hs.isContent rest] at passed
  obtain rfl := Except.ok.inj passed
  exact ⟨List.append_cancel_right e ▸ hs, rfl⟩

/-! ## Values -/

/-- A member of an object as it is written: the inside of its key, and the tokens of its value. -/
structure Member where
  key : Bytes
  value : Tokens

namespace Member

def tokens (m : Member) : Tokens :=
  (Byte.quote :: (m.key ++ [Byte.quote])) :: [Byte.colon] :: m.value

end Member

/-- The tokens of a list of some items. -/
def listTokens (items : List Tokens) : Tokens :=
  [Byte.openList] :: joined items ++ [[Byte.closeList]]

/-- The tokens of an object of some members. -/
def objectTokens (members : List Member) : Tokens :=
  [Byte.openObject] :: joined (members.map Member.tokens) ++ [[Byte.closeObject]]

/-- **The tokens of a value**, which may be nested to any depth. -/
inductive IsValue : Tokens → Prop where
  | word {token : Bytes} (h : token ∈ [ascii "null", ascii "true", ascii "false"]) : IsValue [token]
  | number {n : Numeral} (h : n.WellFormed) : IsValue [n.write]
  | text {content : Bytes} (h : IsContent content) :
      IsValue [Byte.quote :: (content ++ [Byte.quote])]
  | list {items : List Tokens} (h : ∀ item ∈ items, IsValue item) : IsValue (listTokens items)
  | object {members : List Member} (hk : ∀ m ∈ members, IsContent m.key)
      (hv : ∀ m ∈ members, IsValue m.value) : IsValue (objectTokens members)

/-- A member of any object: a string and a value. -/
structure Member.IsMember (m : Member) : Prop where
  key : IsContent m.key
  value : IsValue m.value

theorem listTokens_eq (items : List Tokens) :
    listTokens items = [Byte.openList] :: (separated true items ++ [[Byte.closeList]]) := by
  rw [listTokens, joined_eq_separated, List.cons_append]

theorem objectTokens_eq (members : List Member) :
    objectTokens members = [Byte.openObject] ::
      (separated true (members.map Member.tokens) ++ [[Byte.closeObject]]) := by
  rw [objectTokens, joined_eq_separated, List.cons_append]

theorem isValue_writeWord (value : UInt64) : IsValue (writeWord value) := by
  rw [Reader.writeWord_eq]
  exact IsValue.number (Numeral.wellFormed_ofWord value)

/-- A word is told by its first letter. -/
theorem exists_word? {token : Bytes} (h : token ∈ [ascii "null", ascii "true", ascii "false"]) :
    ∃ first letters found, token = first :: letters ∧ word? first = some (found, letters) := by
  have null : ascii "null" = 0x6E :: ascii "ull" := by decide +kernel
  have yes : ascii "true" = 0x74 :: ascii "rue" := by decide +kernel
  have no : ascii "false" = 0x66 :: ascii "alse" := by decide +kernel
  rw [null, yes, no] at h
  simp only [List.mem_cons, List.not_mem_nil, or_false] at h
  rcases h with rfl | rfl | rfl
  · exact ⟨_, _, .null, rfl, rfl⟩
  · exact ⟨_, _, .boolean true, rfl, rfl⟩
  · exact ⟨_, _, .boolean false, rfl, rfl⟩

theorem letter_of_word? {first : UInt8} {found : Found} {letters : Bytes}
    (h : word? first = some (found, letters)) : first = 0x6E ∨ first = 0x74 ∨ first = 0x66 := by
  unfold word? at h
  split at h
  · exact Or.inl ‹_›
  · split at h
    · exact Or.inr (Or.inl ‹_›)
    · split at h
      · exact Or.inr (Or.inr ‹_›)
      · cases h

theorem IsValue.opens {tokens : Tokens} (h : IsValue tokens) : Opens tokens := by
  cases h with
  | word h =>
    obtain ⟨first, letters, found, rfl, hw⟩ := exists_word? h
    rcases letter_of_word? hw with rfl | rfl | rfl
    · exact ⟨_, letters, [], rfl, rfl, by decide⟩
    · exact ⟨_, letters, [], rfl, rfl, by decide⟩
    · exact ⟨_, letters, [], rfl, rfl, by decide⟩
  | number h => exact Reader.opens_number h
  | text h => exact ⟨Byte.quote, _, [], rfl, rfl, by decide⟩
  | list h => exact ⟨Byte.openList, [], _, rfl, rfl, by decide⟩
  | object hk hv => exact ⟨Byte.openObject, [], _, rfl, rfl, by decide⟩

end HeapWatch.Json
