import FlatConfig.Decimal.Shortest

set_option autoImplicit false

namespace FlatConfig

/-- Where positional notation ends and how an exponent is written after it. -/
structure FloatFormat where
  positional : Int → Bool
  plus : String

namespace FloatFormat

/-- The digits with the point after the one that stands for `10 ^ 0`. -/
def layPositional (digits : List Char) (leading : Int) : List Char :=
  if leading < 0 then
    "0.".toList ++ List.replicate (-leading - 1).toNat '0' ++ digits
  else
    let whole := leading.toNat + 1
    let fraction := digits.drop whole
    digits.take whole ++ List.replicate (whole - digits.length) '0' ++ '.' ::
      (if fraction.isEmpty then ['0'] else fraction)

def layScientific (plus : String) (digits : List Char) (leading : Int) : List Char :=
  let fraction := digits.drop 1
  digits.take 1 ++ (if fraction.isEmpty then [] else '.' :: fraction) ++ 'e' ::
    (if leading < 0 then [] else plus.toList) ++ (toString leading).toList

def write (format : FloatFormat) (x : Binary64) : List Char :=
  let shortest := Decimal.shortest x
  let digits := Nat.toDigits 10 shortest.digits
  let leading : Int := digits.length - 1 + shortest.power
  let sign := if x.negative then ['-'] else []
  sign ++ (if format.positional leading then layPositional digits leading
    else layScientific format.plus digits leading)

def compactRange (leading : Int) : Bool := -5 ≤ leading && leading < 16

end FloatFormat
end FlatConfig
