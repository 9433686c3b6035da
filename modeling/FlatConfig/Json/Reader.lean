import FlatConfig.Value

/-!
Reading JSON text.

The grammar is strict: no trailing commas, comments or leading zeros, and surrogate escapes come in
pairs. Of an object's entries with one key the last value stays, at the place of the first.

Integers within 64 bits stay integers. Any other number is computed from the leading digits that
fit 64 bits and one power of ten, with one rounding for each step, so its last digit may differ
from that of the nearest value.
-/

set_option autoImplicit false

namespace FlatConfig.Json

abbrev Reading (α : Type) := List Char → Option (α × List Char)

def isBlank (c : Char) : Bool := c == ' ' || c == '\t' || c == '\n' || c == '\r'

def skipBlanks (text : List Char) : List Char := text.dropWhile isBlank

def digitValue (c : Char) : Nat := c.toNat - '0'.toNat

def largestInteger : Nat := 0xffffffffffffffff

/-- Digits are taken up while the number they spell fits 64 bits. The second part counts them. -/
def leadingDigits (significand count : Nat) : List Char → Nat × Nat × List Char
  | [] => (significand, count, [])
  | c :: rest =>
    let next := 10 * significand + digitValue c
    if c.isDigit ∧ next ≤ largestInteger then leadingDigits next (count + 1) rest
    else (significand, count, c :: rest)

def powerOfTen (power : Nat) : Binary64 := (Binary64.ofDecimal? 1 power).getD Binary64.zero

def divideByPower (x : Binary64) (power : Nat) : Nat → Option Binary64
  | 0 => some x
  | steps + 1 =>
    if x.isZero then some x
    else if power ≤ 308 then x.div? (powerOfTen power)
    else (x.div? (powerOfTen 308)).bind fun y => divideByPower y (power - 308) steps

/-- The float for `significand · 10 ^ power`; none when it is too large. Four divisions reach zero
from any significand of 64 bits. -/
def float? (negative : Bool) (significand : Nat) (power : Int) : Option Number := do
  let x ← Binary64.ofRatio? significand 1
  let y ←
    if power < 0 then divideByPower x power.natAbs 4
    else if power ≤ 308 then x.mul? (powerOfTen power.toNat)
    else if x.isZero then some x
    else none
  return .float (y.withSign negative)

def exponent? : List Char → Option (Int × List Char)
  | c :: rest =>
    if c = 'e' ∨ c = 'E' then
      let (negative, rest) := match rest with
        | '+' :: rest => (false, rest)
        | '-' :: rest => (true, rest)
        | rest => (false, rest)
      let digits := rest.takeWhile Char.isDigit
      if digits.isEmpty then none
      else
        let power : Nat := digits.foldl (fun n d => 10 * n + digitValue d) 0
        some (if negative then -power else power, rest.dropWhile Char.isDigit)
    else some (0, c :: rest)
  | [] => some (0, [])

def isExponentMark (c : Char) : Bool := c == 'e' || c == 'E'

def magnitude (negative : Bool) (text : List Char) : Option (Number × List Char) := do
  let whole := text.takeWhile Char.isDigit
  let afterWhole := text.dropWhile Char.isDigit
  guard (!whole.isEmpty && (whole.head? != some '0' || whole.length == 1))
  let (significand, _, dropped) := leadingDigits 0 0 whole
  match afterWhole with
  | '.' :: rest =>
    let fraction := rest.takeWhile Char.isDigit
    let afterFraction := rest.dropWhile Char.isDigit
    guard !fraction.isEmpty
    let (significand, count, _) := leadingDigits significand 0 fraction
    let (power, rest) ← exponent? afterFraction
    let number ← float? negative significand (dropped.length - count + power)
    return (number, rest)
  | rest =>
    if dropped.isEmpty && !(rest.head?.any isExponentMark) then
      let n : Int := if negative then -significand else significand
      if negative && (significand == 0 || significand > 0x8000000000000000) then
        return (← float? negative significand 0, rest)
      else return (.integer n, rest)
    else
      let (power, rest) ← exponent? rest
      let number ← float? negative significand (dropped.length + power)
      return (number, rest)

def hexValue? (c : Char) : Option Nat :=
  if c.isDigit then some (c.toNat - '0'.toNat)
  else if 'a' ≤ c ∧ c ≤ 'f' then some (c.toNat - 'a'.toNat + 10)
  else if 'A' ≤ c ∧ c ≤ 'F' then some (c.toNat - 'A'.toNat + 10)
  else none

def unit? (a b c d : Char) : Option Nat := do
  return (((← hexValue? a) * 16 + (← hexValue? b)) * 16 + (← hexValue? c)) * 16 + (← hexValue? d)

def simpleEscape? : Char → Option Char
  | '"' => some '"'
  | '\\' => some '\\'
  | '/' => some '/'
  | 'b' => some '\x08'
  | 'f' => some '\x0c'
  | 'n' => some '\n'
  | 'r' => some '\r'
  | 't' => some '\t'
  | _ => none

def isHigh (unit : Nat) : Bool := 0xD800 ≤ unit && unit < 0xDC00

def isLow (unit : Nat) : Bool := 0xDC00 ≤ unit && unit < 0xE000

def stringBody (text : List Char) : Option (List Char × List Char) :=
  match text with
  | [] => none
  | '"' :: rest => some ([], rest)
  | '\\' :: 'u' :: a :: b :: c :: d :: rest => do
    let unit ← unit? a b c d
    if isHigh unit then
      match rest with
      | '\\' :: 'u' :: e :: f :: g :: h :: rest =>
        let second ← unit? e f g h
        guard (isLow second)
        let (body, rest) ← stringBody rest
        return (Char.ofNat (0x10000 + (unit - 0xD800) * 0x400 + (second - 0xDC00)) :: body, rest)
      | _ => none
    else
      guard !(isLow unit)
      let (body, rest) ← stringBody rest
      return (Char.ofNat unit :: body, rest)
  | '\\' :: c :: rest => do
    let c ← simpleEscape? c
    let (body, rest) ← stringBody rest
    return (c :: body, rest)
  | c :: rest => do
    guard (c != '\\' && c.toNat ≥ 0x20)
    let (body, rest) ← stringBody rest
    return (c :: body, rest)
termination_by structural text

def string : Reading String := fun text => do
  let (body, rest) ← stringBody text
  return (String.ofList body, rest)

def maxDepth : Nat := 127

def keyword? (word : String) (text : List Char) : Option (List Char) :=
  if word.toList.isPrefixOf text then some (text.drop word.length) else none

mutual
/-- A value after leading blanks. Each call reads at least one character, so `fuel` above the
length of the text never runs out. -/
def value (depth : Nat) : Nat → Reading Value
  | 0, _ => none
  | fuel + 1, text =>
    match skipBlanks text with
    | '"' :: rest => do
      let (s, rest) ← string rest
      return (.string s, rest)
    | '[' :: rest => do
      guard (depth > 0)
      match skipBlanks rest with
      | ']' :: rest => return (.list [], rest)
      | rest =>
        let (items, rest) ← items (depth - 1) fuel rest
        return (.list items, rest)
    | '{' :: rest => do
      guard (depth > 0)
      match skipBlanks rest with
      | '}' :: rest => return (.mapping [], rest)
      | rest =>
        let (entries, rest) ← entries (depth - 1) fuel rest
        return (.mapping (Fragment.ofEntries entries), rest)
    | '-' :: rest => do
      let (n, rest) ← magnitude true rest
      return (.number n, rest)
    | text =>
      match keyword? "null" text, keyword? "true" text, keyword? "false" text with
      | some rest, _, _ => some (.null, rest)
      | _, some rest, _ => some (.bool true, rest)
      | _, _, some rest => some (.bool false, rest)
      | _, _, _ => do
        let (n, rest) ← magnitude false text
        return (.number n, rest)

def items (depth : Nat) : Nat → Reading (List Value)
  | 0, _ => none
  | fuel + 1, text => do
    let (item, rest) ← value depth fuel text
    match skipBlanks rest with
    | ',' :: rest =>
      let (more, rest) ← items depth fuel rest
      return (item :: more, rest)
    | ']' :: rest => return ([item], rest)
    | _ => none

def entries (depth : Nat) : Nat → Reading (List (String × Value))
  | 0, _ => none
  | fuel + 1, text => do
    match skipBlanks text with
    | '"' :: rest =>
      let (key, rest) ← string rest
      match skipBlanks rest with
      | ':' :: rest =>
        let (item, rest) ← value depth fuel rest
        match skipBlanks rest with
        | ',' :: rest =>
          let (more, rest) ← entries depth fuel rest
          return ((key, item) :: more, rest)
        | '}' :: rest => return ([(key, item)], rest)
        | _ => none
      | _ => none
    | _ => none
end

/-- A document nested at most `depth` deep, with nothing but blanks around it. -/
def readWithin? (depth : Nat) (text : String) : Option Value := do
  let (v, rest) ← value depth (text.length + 1) text.toList
  guard (skipBlanks rest).isEmpty
  return v

def read? (text : String) : Option Value := readWithin? maxDepth text

end FlatConfig.Json
