import FlatConfig.Value

set_option autoImplicit false

namespace FlatConfig.Yaml

inductive Plain where
  | null
  | bool (b : Bool)
  | number (n : Number)
  | notFinite
  /-- An integer that fits 128 bits but not 64. -/
  | tooLarge
  | text
  deriving DecidableEq, Repr

namespace Plain

def isNull (s : String) : Bool := s == "" || s == "~" || s == "null" || s == "Null" || s == "NULL"

def bool? (s : String) : Option Bool :=
  if s = "true" ∨ s = "True" ∨ s = "TRUE" then some true
  else if s = "false" ∨ s = "False" ∨ s = "FALSE" then some false
  else none

def digit? (base : Nat) (c : Char) : Option Nat :=
  let value :=
    if c.isDigit then c.toNat - '0'.toNat
    else if 'a' ≤ c ∧ c ≤ 'z' then c.toNat - 'a'.toNat + 10
    else if 'A' ≤ c ∧ c ≤ 'Z' then c.toNat - 'A'.toNat + 10
    else base
  if value < base then some value else none

def natural? (base : Nat) (cs : List Char) : Option Nat :=
  if cs.isEmpty then none
  else cs.foldlM (fun n c => (digit? base c).map (base * n + ·)) 0

def isSign (c : Char) : Bool := c == '+' || c == '-'

def dropPlus : List Char → List Char
  | '+' :: rest => rest
  | cs => cs

def hasLeadingZero (cs : List Char) : Bool :=
  match cs with
  | c :: rest => zeroFirst (if isSign c then rest else cs)
  | [] => false
where
  zeroFirst : List Char → Bool
    | '0' :: d :: rest => (d :: rest).all Char.isDigit
    | _ => false

/-- A number after `0x`, `0o` or `0b`; the outer option tells whether there is such a mark. -/
def marked? : List Char → Option (Option Nat)
  | '0' :: 'x' :: rest => some (natural? 16 rest)
  | '0' :: 'o' :: rest => some (natural? 8 rest)
  | '0' :: 'b' :: rest => some (natural? 2 rest)
  | _ => none

def magnitude? (cs : List Char) : Option Nat :=
  match marked? cs with
  | some n => n
  | none => natural? 10 cs

def integer? (cs : List Char) : Option Int :=
  if hasLeadingZero cs then none
  else
    match cs with
    | '-' :: rest => (magnitude? rest).map fun n => -(n : Int)
    | cs => (magnitude? (dropPlus cs)).map Int.ofNat

/-- A number of more than 128 bits is no integer at all. -/
def ofInteger (n : Int) : Option Plain :=
  if -0x8000000000000000 ≤ n ∧ n ≤ 0xffffffffffffffff then some (.number (.integer n))
  else if -0x80000000000000000000000000000000 ≤ n ∧ n ≤ 0xffffffffffffffffffffffffffffffff then
    some .tooLarge
  else none

def isNotFinite (s : String) : Bool :=
  [".inf", ".Inf", ".INF", "+.inf", "+.Inf", "+.INF", "-.inf", "-.Inf", "-.INF", ".nan", ".NaN",
    ".NAN"].contains s

def exponent? : List Char → Option Int
  | [] => some 0
  | c :: rest =>
    if c = 'e' ∨ c = 'E' then
      match rest with
      | '-' :: digits => (natural? 10 digits).map fun n => -(n : Int)
      | digits => (natural? 10 (dropPlus digits)).map Int.ofNat
    else none

def magnitudeFloat? (cs : List Char) : Option Binary64 := do
  let whole := cs.takeWhile Char.isDigit
  let rest := cs.dropWhile Char.isDigit
  let (fraction, rest) := match rest with
    | '.' :: rest => (rest.takeWhile Char.isDigit, rest.dropWhile Char.isDigit)
    | rest => ([], rest)
  let digits ← natural? 10 (whole ++ fraction)
  let power ← exponent? rest
  Binary64.ofDecimal? digits (power - fraction.length)

/-- A float where a tag asks for one: leading zeros are allowed. -/
def taggedFloat? : List Char → Option Binary64
  | '-' :: rest => (magnitudeFloat? rest).map (·.withSign true)
  | cs => magnitudeFloat? (dropPlus cs)

def float? (cs : List Char) : Option Binary64 :=
  if hasLeadingZero cs then none else taggedFloat? cs

def resolve (s : String) : Plain :=
  if isNull s then .null
  else
    match bool? s with
    | some b => .bool b
    | none =>
      match (integer? s.toList).bind ofInteger with
      | some plain => plain
      | none =>
        if isNotFinite s then .notFinite
        else
          match float? s.toList with
          | some x => .number (.float x)
          | none => .text

end Plain
end FlatConfig.Yaml
