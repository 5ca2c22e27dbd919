/-!
# Rounding to binary floating point

A number of the binary format with 53 significant bits and exponents down to 2^-1074 is a whole
number of *units* of 2^-1074. Only magnitudes occur here; a sign is kept beside them. Products
and quotients are rounded to the nearest number of the format, a tie to the one with an even last
bit.

* `Binary64.nearest`: the number nearest to a fraction of units.
* `Binary64.ofScaled?`: whole digits times a power of ten, rounded once for the digits, once for the
  power and once for their product or quotient, as fast readers of decimal numbers do.
-/

namespace HeapWatch

/-- A magnitude of the format, in units of 2^-1074. -/
structure Binary64 where
  units : Nat
deriving DecidableEq, Repr

namespace Binary64

/-- How many units are in 1. -/
def one : Nat := Nat.pow 2 1074

/-- The least number of units beyond the format. -/
def limit : Nat := Nat.pow 2 2098

/-- `a / b` rounded to a whole number, a tie to the even one. -/
def divideToEven (a b : Nat) : Nat :=
  let q := a / b
  let twice := 2 * (a % b)
  if twice < b then q
  else if b < twice then q + 1
  else if q % 2 = 0 then q else q + 1

/-- The number of the format nearest to `a / b` units, however large it is. Of the whole units all
but the 53 leading bits are dropped. -/
def nearest (a b : Nat) : Binary64 :=
  let dropped := Nat.log2 (a / b) - 52
  ⟨divideToEven a (b * Nat.pow 2 dropped) * Nat.pow 2 dropped⟩

def ofNat (n : Nat) : Binary64 := nearest (n * one) 1

def mul (x y : Binary64) : Binary64 := nearest (x.units * y.units) one

def div (x y : Binary64) : Binary64 := nearest (x.units * one) y.units

/-- The greatest power of ten that the format has. -/
def greatestPower : Nat := 308

def powerOfTen (e : Nat) : Binary64 := ofNat (Nat.pow 10 e)

/-- The number divided by ten to the `e`, in steps of at most `greatestPower`. -/
def scaleDown (x : Binary64) (e : Nat) : Binary64 :=
  if e ≤ greatestPower then x.div (powerOfTen e)
  else if x.units = 0 then x
  else (x.div (powerOfTen greatestPower)).scaleDown (e - greatestPower)
termination_by e
decreasing_by simp only [greatestPower] at *; omega

/-- The number times ten to the `e`, unless that is beyond the format. -/
def scaleUp? (x : Binary64) (e : Nat) : Option Binary64 :=
  if e ≤ greatestPower then
    let product := x.mul (powerOfTen e)
    if product.units < limit then some product else none
  else if x.units = 0 then some x
  else none

/-- `digits` times ten to the `exponent`, unless that is beyond the format. -/
def ofScaled? (digits : Nat) (exponent : Int) : Option Binary64 :=
  if 0 ≤ exponent then (ofNat digits).scaleUp? exponent.toNat
  else some ((ofNat digits).scaleDown (-exponent).toNat)

end Binary64

end HeapWatch
