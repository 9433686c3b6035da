/-!
Finite 64-bit binary floating-point values, as exact integers.

A value is `± mantissa · 2 ^ exponent`. Rounding is done on ratios of natural numbers, so that
reading a decimal, multiplying and dividing are each one exact operation followed by one rounding.
-/

set_option autoImplicit false

namespace FlatConfig

/-- Canonical when the mantissa has 53 bits, or fewer at the least exponent `-1074`. -/
structure Binary64 where
  negative : Bool
  mantissa : Nat
  exponent : Int
  deriving DecidableEq, Repr

namespace Binary64

def zero (negative : Bool := false) : Binary64 := ⟨negative, 0, -1074⟩

def isZero (x : Binary64) : Bool := x.mantissa == 0

def same (x y : Binary64) : Bool := x == y || (x.isZero && y.isZero)

def withSign (negative : Bool) (x : Binary64) : Binary64 := { x with negative }

def roundDiv (num den : Nat) : Nat :=
  let q := num / den
  let r := num % den
  if 2 * r < den then q
  else if 2 * r = den then q + q % 2
  else q + 1

/-- The exponent at which `num / den` has a 53-bit integer part, or `-1074` when that is larger. -/
def scale (num den : Nat) : Int :=
  let gap : Int := (num.log2 : Int) - den.log2
  let reached := if gap ≥ 0 then den * Nat.pow 2 gap.toNat ≤ num
    else den ≤ num * Nat.pow 2 (-gap).toNat
  max (-1074) (if reached then gap - 52 else gap - 53)

def leastFull : Nat := 0x10000000000000

/-- The value nearest to `num / den`, ties to even; none beyond the largest finite value. -/
def ofRatio? (num den : Nat) : Option Binary64 :=
  if num = 0 then some zero
  else
    let e := scale num den
    let m := roundDiv (num * Nat.pow 2 (-e).toNat) (den * Nat.pow 2 e.toNat)
    let (m, e) := if m = 2 * leastFull then (leastFull, e + 1) else (m, e)
    if e > 971 then none else some ⟨false, m, e⟩

def numerator (x : Binary64) : Nat := x.mantissa * Nat.pow 2 x.exponent.toNat

def denominator (x : Binary64) : Nat := Nat.pow 2 (-x.exponent).toNat

def mul? (x y : Binary64) : Option Binary64 :=
  ofRatio? (x.numerator * y.numerator) (x.denominator * y.denominator)

def div? (x y : Binary64) : Option Binary64 :=
  ofRatio? (x.numerator * y.denominator) (x.denominator * y.numerator)

def decimalLength (n : Nat) : Nat := if n = 0 then 0 else (Nat.toDigits 10 n).length

/-- The value nearest to `digits · 10 ^ power`. Powers far outside the range of finite values are
decided without computing them. -/
def ofDecimal? (digits : Nat) (power : Int) : Option Binary64 :=
  let magnitude := (decimalLength digits : Int) + power
  if digits = 0 ∨ magnitude < -400 then some zero
  else if magnitude > 400 then none
  else ofRatio? (digits * Nat.pow 10 power.toNat) (Nat.pow 10 (-power).toNat)

example : ofDecimal? 1 (-1) = some ⟨false, 0x1999999999999a, -56⟩ := by decide +kernel
example : ofDecimal? 5 (-324) = some ⟨false, 1, -1074⟩ := by decide +kernel
example : ofDecimal? 1 400 = none := by decide +kernel

end Binary64
end FlatConfig
