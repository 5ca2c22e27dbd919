import HeapWatch.Json.Fault
/-!
# Strings in JSON

A string runs to the next quotation mark that no backslash hides. It is read in one of two ways:
*scanned*, which gives the bytes that it stands for, or *skipped*, which passes over it and looks at
no more of its escapes than their form.

* `scanText`: the bytes that a string stands for.
* `skipText`: what follows a string.
-/

namespace HeapWatch.Json

/-! ## Escapes -/

/-- The byte that a backslash and a letter stand for. -/
def escaped? (letter : UInt8) : Option UInt8 :=
  if letter = Byte.quote ∨ letter = Byte.backslash ∨ letter = 0x2F then some letter
  else if letter = 0x62 then some 0x08
  else if letter = 0x66 then some 0x0C
  else if letter = 0x6E then some 0x0A
  else if letter = 0x72 then some 0x0D
  else if letter = 0x74 then some 0x09
  else none

/-- The letter of an escape that gives a code unit. -/
def unitLetter : UInt8 := 0x75

/-- The code unit in four hexadecimal digits. -/
def scanUnit : Bytes → Scan Nat
  | a :: b :: c :: d :: s =>
    match Byte.hexValue? a, Byte.hexValue? b, Byte.hexValue? c, Byte.hexValue? d with
    | some a, some b, some c, some d => .ok (((a * 16 + b) * 16 + c) * 16 + d, s)
    | _, _, _, _ => .error (.before .badEscape s)
  | _ => .error (.before .endInString [])

/-- Whether a code unit is the first of a surrogate pair. -/
def isHighSurrogate (unit : Nat) : Bool := 0xD800 ≤ unit && unit < 0xDC00

/-- Whether a code unit is the second of a surrogate pair. -/
def isLowSurrogate (unit : Nat) : Bool := 0xDC00 ≤ unit && unit < 0xE000

/-- The code point of a surrogate pair. -/
def joinSurrogates (high low : Nat) : Nat := 0x10000 + (high - 0xD800) * 0x400 + (low - 0xDC00)

/-- Passes over one byte that has to follow the first half of a surrogate pair. -/
def scanPairByte (wanted : UInt8) : Bytes → Except Fault Bytes
  | [] => .error (.before .endInString [])
  | b :: s => if b = wanted then .ok s else .error (.before .halfSurrogatePair s)

/-- The second half of a surrogate pair, in an escape of its own. -/
def scanSecondHalf (high : Nat) (s : Bytes) : Scan Nat :=
  match scanPairByte Byte.backslash s with
  | .error fault => .error fault
  | .ok s =>
    match scanPairByte unitLetter s with
    | .error fault => .error fault
    | .ok s =>
      match scanUnit s with
      | .error fault => .error fault
      | .ok (low, s) =>
        if isLowSurrogate low then .ok (joinSurrogates high low, s)
        else .error (.before .loneSurrogate s)

/-- The code point of an escape, after its letter: a code unit, or two that are a surrogate pair. -/
def scanCode (s : Bytes) : Scan Nat :=
  match scanUnit s with
  | .error fault => .error fault
  | .ok (unit, s) =>
    if isLowSurrogate unit then .error (.before .loneSurrogate s)
    else if isHighSurrogate unit then scanSecondHalf unit s
    else .ok (unit, s)

/-- The bytes that an escape stands for, after its backslash. -/
def scanEscape : Bytes → Scan Bytes
  | [] => .error (.before .endInString [])
  | letter :: s =>
    if letter = unitLetter then
      match scanCode s with
      | .error fault => .error fault
      | .ok (code, s) => .ok (Text.Utf8.encodeCode code, s)
    else
      match escaped? letter with
      | some b => .ok ([b], s)
      | none => .error (.before .badEscape s)

/-- Passes over an escape, after its backslash. -/
def skipEscape : Bytes → Except Fault Bytes
  | [] => .error (.before .endInString [])
  | letter :: s =>
    if letter = unitLetter then
      match scanUnit s with
      | .error fault => .error fault
      | .ok (_, s) => .ok s
    else if (escaped? letter).isSome then .ok s
    else .error (.before .badEscape s)

theorem length_scanUnit {s rest : Bytes} {unit : Nat} (h : scanUnit s = .ok (unit, rest)) :
    rest.length < s.length := by
  revert h
  fun_cases scanUnit s with
  | case1 => simp; rintro - rfl; omega
  | case2 => simp
  | case3 => simp

theorem length_scanPairByte {wanted : UInt8} {s rest : Bytes}
    (h : scanPairByte wanted s = .ok rest) : rest.length < s.length := by
  revert h
  fun_cases scanPairByte wanted s with
  | case1 => simp
  | case2 => simp +contextual [eq_comm]
  | case3 => simp

theorem length_scanSecondHalf {high code : Nat} {s rest : Bytes}
    (h : scanSecondHalf high s = .ok (code, rest)) : rest.length < s.length := by
  revert h
  fun_cases scanSecondHalf high s with
  | case1 => simp
  | case2 => simp
  | case3 => simp
  | case4 s₁ h₁ s₂ h₂ low s₃ h₃ _ =>
    have := length_scanPairByte h₁
    have := length_scanPairByte h₂
    have := length_scanUnit h₃
    simp; rintro - rfl; omega
  | case5 => simp

theorem length_scanCode {code : Nat} {s rest : Bytes} (h : scanCode s = .ok (code, rest)) :
    rest.length < s.length := by
  revert h
  fun_cases scanCode s with
  | case1 => simp
  | case2 => simp
  | case3 unit s₁ h₁ _ _ =>
    intro h
    have := length_scanUnit h₁
    have := length_scanSecondHalf h
    omega
  | case4 unit s₁ h₁ _ _ =>
    have := length_scanUnit h₁
    simp; rintro - rfl; omega

theorem length_scanEscape {s rest decoded : Bytes} (h : scanEscape s = .ok (decoded, rest)) :
    rest.length < s.length := by
  revert h
  fun_cases scanEscape s with
  | case1 => simp
  | case2 => simp
  | case3 s code s₁ h₁ =>
    have := length_scanCode h₁
    simp; rintro - rfl; omega
  | case4 => simp +contextual [eq_comm]
  | case5 => simp

theorem length_skipEscape {s rest : Bytes} (h : skipEscape s = .ok rest) :
    rest.length < s.length := by
  revert h
  fun_cases skipEscape s with
  | case1 => simp
  | case2 => simp
  | case3 s unit s₁ h₁ =>
    have := length_scanUnit h₁
    simp; rintro rfl; omega
  | case4 => simp +contextual [eq_comm]
  | case5 => simp

/-! ## Whole strings -/

/-- The bytes that a string stands for, after its opening quotation mark. -/
def scanText (s : Bytes) : Scan Bytes :=
  match s with
  | [] => .error (.before .endInString [])
  | b :: s =>
    if b = Byte.quote then .ok ([], s)
    else if b = Byte.backslash then
      match h : scanEscape s with
      | .error fault => .error fault
      | .ok (decoded, s') =>
        have := length_scanEscape h
        match scanText s' with
        | .error fault => .error fault
        | .ok (text, rest) => .ok (decoded ++ text, rest)
    else if Byte.isControl b then .error (.before .controlInString s)
    else
      match scanText s with
      | .error fault => .error fault
      | .ok (text, rest) => .ok (b :: text, rest)
termination_by s.length

/-- Passes over a string, after its opening quotation mark. A control is found before it is passed. -/
def skipText (s : Bytes) : Except Fault Bytes :=
  match s with
  | [] => .error (.before .endInString [])
  | b :: s =>
    if b = Byte.quote then .ok s
    else if b = Byte.backslash then
      match h : skipEscape s with
      | .error fault => .error fault
      | .ok s' =>
        have := length_skipEscape h
        skipText s'
    else if Byte.isControl b then .error (.before .controlInString (b :: s))
    else skipText s
termination_by s.length

theorem length_scanText {s rest text : Bytes} (h : scanText s = .ok (text, rest)) :
    rest.length < s.length := by
  fun_induction scanText s generalizing text rest with
  | case1 => simp at h
  | case2 => simp at h; simp [← h.2]
  | case3 => simp at h
  | case4 => simp_all
  | case5 s _ s' hs hlt text' rest' hr _ ih =>
    simp at h
    have := ih hr
    simp only [List.length_cons, ← h.2]; omega
  | case6 => simp at h
  | case7 => simp_all
  | case8 b s _ _ _ text' rest' hr ih =>
    simp at h
    have := ih hr
    simp only [List.length_cons, ← h.2]; omega

theorem length_skipText {s rest : Bytes} (h : skipText s = .ok rest) : rest.length < s.length := by
  fun_induction skipText s generalizing rest with
  | case1 => simp at h
  | case2 => simp at h; simp [← h]
  | case3 => simp at h
  | case4 s _ s' hs hlt ih => have := ih h; simp only [List.length_cons]; omega
  | case5 => simp at h
  | case6 b s _ _ _ ih => have := ih h; simp only [List.length_cons]; omega

end HeapWatch.Json
