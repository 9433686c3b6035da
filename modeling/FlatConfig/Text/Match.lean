/-!
Leftmost matches in a text that do not overlap.

A matcher looks at the front of a text only. `pieces` cuts a text into the characters where no
match starts and the matches, from left to right, each search going on after the last match.
-/

set_option autoImplicit false

namespace FlatConfig.Text

def strip? : List Char → List Char → Option (List Char)
  | [], text => some text
  | _ :: _, [] => none
  | p :: front, c :: text => if p = c then strip? front text else none

theorem strip?_eq_some {front text rest : List Char} :
    strip? front text = some rest ↔ text = front ++ rest := by
  induction front generalizing text with
  | nil => simp [strip?]
  | cons p front ih =>
    cases text with
    | nil => simp [strip?]
    | cons c text => by_cases h : p = c <;> simp [strip?, h, ih, eq_comm]

def cut? (marker : List Char) : List Char → Option (List Char × List Char)
  | [] => (strip? marker []).map ([], ·)
  | c :: text =>
    match strip? marker (c :: text) with
    | some rest => some ([], rest)
    | none => (cut? marker text).map fun (before, after) => (c :: before, after)

def contains (marker text : List Char) : Bool := (cut? marker text).isSome

inductive Piece (α : Type) where
  | char (c : Char)
  | found (a : α)
  deriving DecidableEq, Repr

/-- What stands at the front of a text, and the text after it. -/
abbrev Matcher (α : Type) := List Char → Option (α × List Char)

/-- The pieces of a text whose first `skip` characters belong to the match before. -/
def piecesAfter {α : Type} (find : Matcher α) : Nat → List Char → List (Piece α)
  | _, [] => []
  | skip + 1, _ :: text => piecesAfter find skip text
  | 0, c :: text =>
    match find (c :: text) with
    | some (a, rest) => .found a :: piecesAfter find (text.length - rest.length) text
    | none => .char c :: piecesAfter find 0 text

def pieces {α : Type} (find : Matcher α) (text : List Char) : List (Piece α) :=
  piecesAfter find 0 text

def replace {α : Type} (find : Matcher α) (image : α → List Char) (text : List Char) : List Char :=
  (pieces find text).flatMap fun
    | .char c => [c]
    | .found a => image a

end FlatConfig.Text
