import FlatConfig.Decimal.Binary64

/-!
The shortest decimal that reads back as a given binary value.

The reals that round to a value form an interval, closed exactly when the mantissa is even. Among
the decimals `d · 10 ^ p` in it the one with the largest `p`, and then the one nearest to the
value, has the fewest digits.
-/

set_option autoImplicit false

namespace FlatConfig

structure Decimal where
  digits : Nat
  power : Int
  deriving DecidableEq, Repr

namespace Decimal

/-- The interval of reals that round to a value, over a common denominator. -/
structure Interval where
  low : Nat
  value : Nat
  high : Nat
  denominator : Nat
  closed : Bool
  deriving Repr

/-- Half the distance to each neighbour; below a power of two the lower neighbour is twice as near. -/
def Interval.of (x : Binary64) : Interval :=
  let e := x.exponent - 2
  let unit := Nat.pow 2 e.toNat
  let below := if x.mantissa = Binary64.leastFull ∧ x.exponent > -1074 then 1 else 2
  { low := (4 * x.mantissa - below) * unit
    value := 4 * x.mantissa * unit
    high := (4 * x.mantissa + 2) * unit
    denominator := Nat.pow 2 (-e).toNat
    closed := x.mantissa % 2 = 0 }

def Interval.holds (i : Interval) (grid scale d : Nat) : Bool :=
  let point := d * grid * i.denominator
  if i.closed then i.low * scale ≤ point && point ≤ i.high * scale
  else i.low * scale < point && point < i.high * scale

/-- The grid point `d · 10 ^ power` in the interval that is nearest to the value; a tie goes to
the even one. -/
def Interval.nearest? (i : Interval) (power : Int) : Option Nat :=
  let grid := Nat.pow 10 power.toNat
  let scale := Nat.pow 10 (-power).toNat
  let below := i.value * scale / (grid * i.denominator)
  let twice := 2 * i.value * scale
  let middle := (2 * below + 1) * grid * i.denominator
  let belowFirst := twice < middle || (twice = middle && below % 2 = 0)
  let choices := if belowFirst then [below, below + 1] else [below + 1, below]
  choices.find? fun d => d > 0 && i.holds grid scale d

def Interval.search (i : Interval) (power : Int) : Nat → Decimal
  | 0 => ⟨0, 0⟩
  | steps + 1 =>
    match i.nearest? power with
    | some d => ⟨d, power⟩
    | none => i.search (power - 1) steps

def leadingPower (x : Binary64) : Int :=
  ((x.mantissa.log2 : Int) + 1 + x.exponent) * 30103 / 100000 + 1

/-- Seventeen digits always suffice; the search starts at most two places too high. -/
def shortest (x : Binary64) : Decimal :=
  if x.isZero then ⟨0, 0⟩ else (Interval.of x).search (leadingPower x) 24

example : shortest ⟨false, 0x1999999999999a, -56⟩ = ⟨1, -1⟩ := by decide +kernel
example : shortest ⟨false, 1, -1074⟩ = ⟨5, -324⟩ := by decide +kernel
example : shortest ⟨false, 0x1fffffffffffff, 971⟩ = ⟨17976931348623157, 292⟩ := by decide +kernel

end Decimal
end FlatConfig
