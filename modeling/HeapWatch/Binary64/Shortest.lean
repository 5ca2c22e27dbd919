import HeapWatch.Binary64
import HeapWatch.Digits
/-!
# The shortest decimal text of a number

A number is written with the fewest digits that read back as it; of those the nearest to it, and of
two equally near the one with an even last digit. The point stands among the digits from 10^-5 up to
below 10^16, and beyond that after the first digit, with an exponent. There is always a digit after
a point that stands among the digits, so that no whole number looks like an integer.

* `Binary64.shortest`: digits and exponent.
* `Binary64.text`: the text.
-/

namespace HeapWatch

namespace Binary64

/-- `digits` times ten to the `exponent`. -/
structure Decimal where
  digits : Nat
  exponent : Int
deriving DecidableEq, Repr

/-- The number of the format nearest to a decimal. -/
def ofDecimal (d : Decimal) : Binary64 :=
  if 0 ≤ d.exponent then nearest (d.digits * Nat.pow 10 d.exponent.toNat * one) 1
  else nearest (d.digits * one) (Nat.pow 10 (-d.exponent).toNat)

/-- The exponent of ten of the first digit of `a / b`, for positive `a` and `b`: the digits before
the point less one, or, below 1, the zeros after the point and one, counted up to `steps`. -/
def leadingExponent (a b : Nat) : Nat → Int
  | 0 => 0
  | steps + 1 =>
    if b ≤ a then (Digits.ofNat 10 (a / b)).length - 1
    else leadingExponent (a * 10) b steps - 1

/-- The decimals next to a number on the grid of ten to the `exponent`, the nearer one first. -/
def neighbours (x : Binary64) (exponent : Int) : List Decimal :=
  let a := if 0 ≤ exponent then x.units else x.units * Nat.pow 10 (-exponent).toNat
  let b := if 0 ≤ exponent then one * Nat.pow 10 exponent.toNat else one
  let below := a / b
  if divideToEven a b = below then [⟨below, exponent⟩, ⟨below + 1, exponent⟩]
  else [⟨below + 1, exponent⟩, ⟨below, exponent⟩]

/-- A decimal without zeros at the end, as far as `steps` reach. -/
def Decimal.trimmed (d : Decimal) : Nat → Decimal
  | 0 => d
  | steps + 1 =>
    if d.digits % 10 = 0 ∧ d.digits ≠ 0 then trimmed ⟨d.digits / 10, d.exponent + 1⟩ steps else d

/-- The first decimal of `count`, `count + 1`, … digits that reads back as the number. -/
def shortestFrom (x : Binary64) (first : Int) (count : Nat) : Nat → Decimal
  | 0 => ⟨0, 0⟩
  | grids + 1 =>
    match (x.neighbours (first - (count - 1 : Nat))).find? fun d => ofDecimal d == x with
    | some d => d.trimmed 20
    | none => x.shortestFrom first (count + 1) grids

/-- The decimal with the fewest digits that reads back as the number. Seventeen are always enough. -/
def shortest (x : Binary64) : Decimal :=
  if x.units = 0 then ⟨0, 0⟩ else x.shortestFrom (leadingExponent x.units one 400) 1 17

/-- A decimal as text, by where the point would stand: `place` digits from the first one on are
before it. -/
def Decimal.text (d : Decimal) : List Char :=
  let digits := (Digits.ofNat 10 d.digits).map Digits.toChar
  let place : Int := digits.length + d.exponent
  if d.digits = 0 then ['0', '.', '0']
  else if -4 ≤ place ∧ place ≤ 0 then
    ['0', '.'] ++ List.replicate (-place).toNat '0' ++ digits
  else if 0 < place ∧ place ≤ 16 then
    if 0 ≤ d.exponent then digits ++ List.replicate d.exponent.toNat '0' ++ ['.', '0']
    else digits.take place.toNat ++ ['.'] ++ digits.drop place.toNat
  else
    let power := place - 1
    digits.take 1 ++ (if digits.length = 1 then [] else '.' :: digits.drop 1)
      ++ ['e', if power < 0 then '-' else '+'] ++ (Digits.decimal power.natAbs).toList

def text (negative : Bool) (x : Binary64) : String :=
  String.ofList ((if negative then ['-'] else []) ++ x.shortest.text)

end Binary64

end HeapWatch
