import FlatConfig.Yaml.Char

set_option autoImplicit false

namespace FlatConfig.Yaml

structure Cursor where
  rest : List Char
  /-- The length of the rest, kept so that no loop has to count it for its bound. -/
  left : Nat
  index : Nat
  line : Nat
  column : Nat

namespace Cursor

def start (text : List Char) : Cursor := ⟨text, text.length, 0, 0, 0⟩

def byteCount (text : List Char) : Nat := text.foldl (fun n c => n + c.utf8Size) 0

def peek? (c : Cursor) : Option Char := c.rest.head?

def ahead? (c : Cursor) (n : Nat) : Option Char := (c.rest.drop n).head?

def skip (c : Cursor) (n : Nat) : Cursor :=
  { c with
    rest := c.rest.drop n
    left := c.left - n
    index := c.index + byteCount (c.rest.take n)
    column := c.column + n }

def skipWhile (c : Cursor) (p : Char → Bool) : Cursor := c.skip (c.rest.takeWhile p).length

def takeWhile (c : Cursor) (p : Char → Bool) : List Char × Cursor :=
  (c.rest.takeWhile p, c.skipWhile p)

/-- A line break as text: the separators stay, all others are a line feed. -/
def breakText (b : Char) : Char := if b == '\u2028' || b == '\u2029' then b else '\n'

def break? (c : Cursor) : Option (Char × Cursor) :=
  match c.rest with
  | '\r' :: '\n' :: rest => some ('\n', ⟨rest, c.left - 2, c.index + 2, c.line + 1, 0⟩)
  | b :: rest =>
    if isBreak b then
      some (breakText b, ⟨rest, c.left - 1, c.index + b.utf8Size, c.line + 1, 0⟩)
    else none
  | [] => none

def skipComment (c : Cursor) : Cursor :=
  if c.peek? == some '#' then c.skipWhile (!isBreak ·) else c

def endOfLine? (c : Cursor) : Option Cursor :=
  let c := (c.skipWhile isBlank).skipComment
  match c.break? with
  | some (_, c) => some c
  | none => if c.rest.isEmpty then some c else none

/-- Three marks of one kind at the start of a line, with a blank after them. -/
def isDocumentMark (c : Cursor) (mark : Char) : Bool :=
  c.column == 0 && c.rest.take 3 == [mark, mark, mark] && isSpaceOrEnd (c.ahead? 3)

def isAtDocumentMark (c : Cursor) : Bool := c.isDocumentMark '-' || c.isDocumentMark '.'

end Cursor
end FlatConfig.Yaml
