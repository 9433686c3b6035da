/-!
Regular expressions, as far as it takes to tell which texts are one.

A text is read character by character. Escapes for classes that need character tables and for word
boundaries are not supported. A repetition count is never complete, since the texts that are read
here end before the first closing brace.
-/

set_option autoImplicit false

namespace FlatConfig.Text

inductive PatternPlace where
  | outside (repeatable : Bool)
  | escape
  | groupStart
  | groupHead
  | bracketStart (negatable : Bool)
  | inBrackets
  | bracketEscape
  deriving DecidableEq, Repr

structure PatternState where
  place : PatternPlace
  groups : Nat
  brackets : Nat
  deriving DecidableEq, Repr

namespace PatternState

def start : PatternState := ⟨.outside false, 0, 0⟩

def isComplete (s : PatternState) : Bool :=
  s.groups == 0 && (s.place == .outside true || s.place == .outside false)

/-- The letters that stand for something after a backslash, and most marks, which then stand for
themselves. -/
def isEscapable (c : Char) : Bool :=
  "aftnrvAzxuU".toList.contains c ||
    (c.toNat < 0x80 && !c.isAlphanum && c != '<' && c != '>')

def isRepetition (c : Char) : Bool := c == '*' || c == '+' || c == '?'

def isHead (c : Char) : Bool := c.isAlphanum || c == '_' || c == '-' || c == '<'

def moveTo (s : PatternState) (place : PatternPlace) : PatternState := { s with place }

def closeGroup (s : PatternState) (repeatable : Bool) : Option PatternState :=
  match s.groups with
  | 0 => none
  | groups + 1 => some { s with groups, place := .outside repeatable }

def stepOutside (s : PatternState) (repeatable : Bool) (c : Char) : Option PatternState :=
  if isRepetition c then if repeatable then some s else none
  else
    match c with
    | '\\' => some (s.moveTo .escape)
    | '(' => some { s with groups := s.groups + 1, place := .groupStart }
    | ')' => s.closeGroup true
    | '[' => some { s with brackets := 1, place := .bracketStart true }
    | '|' => some (s.moveTo (.outside false))
    | '{' => none
    | _ => some (s.moveTo (.outside true))

def stepBrackets (s : PatternState) (c : Char) : PatternState :=
  match c with
  | '\\' => s.moveTo .bracketEscape
  | '[' => { s with brackets := s.brackets + 1, place := .bracketStart true }
  | ']' =>
    { s with
      brackets := s.brackets - 1
      place := if s.brackets ≤ 1 then .outside true else .inBrackets }
  | _ => s.moveTo .inBrackets

def step (s : PatternState) (c : Char) : Option PatternState :=
  match s.place with
  | .outside repeatable => s.stepOutside repeatable c
  | .escape => if isEscapable c then some (s.moveTo (.outside true)) else none
  | .groupStart => if c = '?' then some (s.moveTo .groupHead) else s.stepOutside false c
  | .groupHead =>
    if c = ':' ∨ c = '>' then some (s.moveTo (.outside false))
    else if c = ')' then s.closeGroup false
    else if isHead c then some s
    else none
  | .bracketStart negatable =>
    if c = '^' ∧ negatable then some (s.moveTo (.bracketStart false))
    else if c = ']' then some (s.moveTo .inBrackets)
    else some (s.stepBrackets c)
  | .inBrackets => some (s.stepBrackets c)
  | .bracketEscape => if isEscapable c then some (s.moveTo .inBrackets) else none

end PatternState

def isPattern (text : List Char) : Bool :=
  (text.foldlM PatternState.step PatternState.start).any PatternState.isComplete

end FlatConfig.Text
