import HeapWatch.Json.Fault
/-!
# Numbers in JSON

A numeral is a number as it is written: a sign, digits, a fraction and an exponent. What it stands
for depends on the writing. Digits alone are a whole number as long as they fit 64 bits; with a
fraction or an exponent, or when they do not fit, they are a floating-point number. So is minus zero.

* `Numeral.write`, `Numeral.scan`: to bytes and back.
* `Numeral.quantity`: what a numeral stands for.
-/

namespace HeapWatch.Json

/-- An exponent as it is written. -/
structure Exponent where
  mark : UInt8
  sign : Option UInt8
  digits : Bytes
deriving DecidableEq, Repr

/-- A number as it is written. An empty fraction is none. -/
structure Numeral where
  negative : Bool
  whole : Bytes
  fraction : Bytes
  exponent : Option Exponent
deriving DecidableEq, Repr

/-- What a numeral stands for. -/
inductive Quantity where
  | natural (value : UInt64)
  | negative (magnitude : Nat)
  | real (isNegative : Bool) (value : Binary64)
deriving DecidableEq, Repr

namespace Quantity

/-- A quantity as a value found where another was wanted. -/
def found : Quantity → Found
  | .natural value => .natural value
  | .negative magnitude => .negative magnitude
  | .real isNegative value => .real isNegative value

end Quantity

namespace Exponent

/-- The exponent as bytes. -/
def write (e : Exponent) : Bytes := e.mark :: e.sign.toList ++ e.digits

/-- Whether the exponent is written as the grammar has it. -/
def WellFormed (e : Exponent) : Prop :=
  Byte.isExponentMark e.mark ∧ (∀ b ∈ e.sign, b = Byte.plus ∨ b = Byte.minus) ∧
    e.digits ≠ [] ∧ ∀ b ∈ e.digits, Byte.isDigit b

end Exponent

namespace Numeral

/-- The numeral as bytes. -/
def write (n : Numeral) : Bytes :=
  (if n.negative then [Byte.minus] else []) ++ n.whole
    ++ (if n.fraction = [] then [] else Byte.point :: n.fraction)
    ++ (match n.exponent with
      | some e => e.write
      | none => [])

/-- Whether the numeral is written as the grammar has it: there are digits before the point, and
they do not start with 0 unless that is all. -/
def WellFormed (n : Numeral) : Prop :=
  n.whole ≠ [] ∧ (∀ b ∈ n.whole, Byte.isDigit b) ∧ (n.whole.head? = some Byte.zero → n.whole = [Byte.zero]) ∧
    (∀ b ∈ n.fraction, Byte.isDigit b) ∧ ∀ e ∈ n.exponent, e.WellFormed

/-- Whether nothing but digits is written. -/
def IsPlain (n : Numeral) : Prop := n.negative = false ∧ n.fraction = [] ∧ n.exponent = none

/-! ## Scanning -/

/-- The digits in front and what follows them. -/
def spanDigits (s : Bytes) : Bytes × Bytes := (s.takeWhile Byte.isDigit, s.dropWhile Byte.isDigit)

/-- The digits before the point. A 0 in front of other digits is refused. What the end of the text
means there is for the caller to say. -/
def scanWhole (atEnd : Cause) : Bytes → Scan Bytes
  | [] => .error (.before atEnd [])
  | b :: s =>
    if b = Byte.zero then
      match s with
      | [] => .ok ([b], [])
      | c :: _ => if Byte.isDigit c then .error (.within .badNumber s) else .ok ([b], s)
    else if Byte.isDigit b then
      let (digits, rest) := spanDigits s
      .ok (b :: digits, rest)
    else .error (.before .badNumber s)

/-- The digits after a point, if a point comes next. -/
def scanFraction (atEnd : Cause) : Bytes → Scan Bytes
  | [] => .ok ([], [])
  | b :: s =>
    if b = Byte.point then
      let (digits, rest) := spanDigits s
      if digits = [] then .error (.within (if rest = [] then atEnd else .badNumber) rest)
      else .ok (digits, rest)
    else .ok ([], b :: s)

/-- The sign of an exponent, if one comes next. -/
def scanSign : Bytes → Option UInt8 × Bytes
  | [] => (none, [])
  | b :: s => if b = Byte.plus ∨ b = Byte.minus then (some b, s) else (none, b :: s)

/-- An exponent, if its letter comes next. -/
def scanExponent (atEnd : Cause) : Bytes → Scan (Option Exponent)
  | [] => .ok (none, [])
  | mark :: s =>
    if Byte.isExponentMark mark then
      let (sign, s) := scanSign s
      match s with
      | [] => .error (.before atEnd [])
      | b :: s =>
        if Byte.isDigit b then
          let (digits, rest) := spanDigits s
          .ok (some ⟨mark, sign, b :: digits⟩, rest)
        else .error (.before .badNumber s)
    else .ok (none, mark :: s)

/-- What follows a minus in front. -/
def scanMinus : Bytes → Bool × Bytes
  | [] => (false, [])
  | b :: s => if b = Byte.minus then (true, s) else (false, b :: s)

/-- A number at the front of a text. -/
def scan (atEnd : Cause) (s : Bytes) : Scan Numeral :=
  match scanWhole atEnd (scanMinus s).2 with
  | .error fault => .error fault
  | .ok (whole, s₁) =>
    match scanFraction atEnd s₁ with
    | .error fault => .error fault
    | .ok (fraction, s₂) =>
      match scanExponent atEnd s₂ with
      | .error fault => .error fault
      | .ok (exponent, s₃) => .ok (⟨(scanMinus s).1, whole, fraction, exponent⟩, s₃)

/-! ## What a numeral stands for -/

/-- The value of a digit. -/
def digitValue (b : UInt8) : Nat := b.toNat - 48

/-- Appends digits to a number for as long as it stays below 2^64. -/
def gather (n : Nat) : Bytes → Nat × Bytes
  | [] => (n, [])
  | b :: rest =>
    let longer := n * 10 + digitValue b
    if longer < UInt64.size then gather longer rest else (n, b :: rest)

/-- The value of an exponent's digits, read for as long as it stays below 2^31, and the digits that
are unread. -/
def exponentValue (n : Nat) : Bytes → Nat × Bytes
  | [] => (n, [])
  | b :: rest =>
    let longer := n * 10 + digitValue b
    if longer < 0x80000000 then exponentValue longer rest else (n, rest)

/-- Whether the value of an exponent's digits reaches 2^31. -/
def exponentOverflows (digits : Bytes) : Bool :=
  0x80000000 ≤ Digits.toNat 10 (digits.map digitValue)

/-- The significant digits of a numeral as one number below 2^64, and the power of ten that it has
without the exponent. Digits that no longer fit are dropped, those before the point at the price of
a higher power. -/
def significand (n : Numeral) : Nat × Int :=
  let (start, dropped) := gather 0 n.whole
  let (digits, unread) := gather start n.fraction
  (digits, dropped.length - (n.fraction.length - unread.length : Nat))

/-- The floating-point number that a numeral stands for. If it is beyond the greatest finite one, the
number of bytes that need not have been read to know that. -/
def real (n : Numeral) : Except Nat Binary64 :=
  let (digits, power) := n.significand
  let sized (power : Int) : Except Nat Binary64 :=
    match Binary64.ofScaled? digits power with
    | some value => .ok value
    | none => .error 0
  match n.exponent with
  | none => sized power
  | some e =>
    let down := e.sign = some Byte.minus
    if exponentOverflows e.digits then
      if digits = 0 ∨ down then .ok ⟨0⟩ else .error (exponentValue 0 e.digits).2.length
    else
      let exponent : Int := (exponentValue 0 e.digits).1
      sized (if down then power - exponent else power + exponent)

/-- What a numeral stands for, or, if that is beyond the greatest finite number, how many of its
bytes need not have been read to know that. -/
def quantity (n : Numeral) : Except Nat Quantity :=
  let magnitude := Digits.toNat 10 (n.whole.map digitValue)
  if n.fraction = [] ∧ n.exponent = none ∧ magnitude < UInt64.size ∧ !n.negative then
    .ok (.natural magnitude.toUInt64)
  else if n.fraction = [] ∧ n.exponent = none ∧ 0 < magnitude ∧
      magnitude ≤ 0x8000000000000000 ∧ n.negative then
    .ok (.negative magnitude)
  else n.real.map fun value => .real n.negative value

/-! ## Every scan leaves a shorter text -/

theorem length_spanDigits (s : Bytes) :
    (spanDigits s).1.length + (spanDigits s).2.length = s.length := by
  rw [← List.length_append]
  simp [spanDigits]

theorem length_scanWhole {atEnd : Cause} {s digits rest : Bytes}
    (h : scanWhole atEnd s = .ok (digits, rest)) : rest.length < s.length := by
  revert h
  fun_cases scanWhole atEnd s with
  | case1 => simp
  | case2 => simp +contextual [eq_comm]
  | case3 => simp
  | case4 => simp; rintro - rfl; exact Nat.lt_succ_self _
  | case5 b s _ _ digits' rest' heq =>
    have hl := length_spanDigits s
    simp only [heq] at hl
    simp
    rintro - rfl
    omega
  | case6 => simp

theorem length_scanFraction {atEnd : Cause} {s digits rest : Bytes}
    (h : scanFraction atEnd s = .ok (digits, rest)) : rest.length ≤ s.length := by
  revert h
  fun_cases scanFraction atEnd s with
  | case1 => simp +contextual
  | case2 => simp
  | case3 s digits' rest' heq _ =>
    have hl := length_spanDigits s
    simp only [heq] at hl
    simp
    rintro - rfl
    omega
  | case4 => simp; rintro - rfl; simp

theorem length_scanSign (s : Bytes) : (scanSign s).2.length ≤ s.length := by
  fun_cases scanSign s <;> simp

theorem length_scanExponent {atEnd : Cause} {s rest : Bytes} {e : Option Exponent}
    (h : scanExponent atEnd s = .ok (e, rest)) : rest.length ≤ s.length := by
  revert h
  fun_cases scanExponent atEnd s with
  | case1 => simp +contextual
  | case2 => simp
  | case3 mark s _ sign b s' _ digits' rest' heq heq' =>
    have hs := length_scanSign s
    have hl := length_spanDigits s'
    simp only [heq, heq', List.length_cons] at hs hl
    simp
    rintro - rfl
    omega
  | case4 => simp
  | case5 => simp; rintro - rfl; simp

theorem length_scanMinus (s : Bytes) : (scanMinus s).2.length ≤ s.length := by
  fun_cases scanMinus s <;> simp

theorem length_scan {atEnd : Cause} {s rest : Bytes} {n : Numeral}
    (h : scan atEnd s = .ok (n, rest)) : rest.length < s.length := by
  revert h
  fun_cases scan atEnd s with
  | case1 => simp
  | case2 => simp
  | case3 => simp
  | case4 whole s₁ hw fraction s₂ hf exponent s₃ he =>
    have h₀ := length_scanMinus s
    have h₁ := length_scanWhole hw
    have h₂ := length_scanFraction hf
    have h₃ := length_scanExponent he
    simp
    rintro - rfl
    omega

end Numeral

end HeapWatch.Json
