import FlatConfig.Decimal.Layout
import FlatConfig.Value
import FlatConfig.Yaml.Char
import FlatConfig.Yaml.Plain

/-!
Writing values as block-style YAML.

Two columns of indentation for each level, lists in the column of their key, lines of any length.
A text that would mean something else when it is plain is quoted; one with a line feed becomes a
literal block where its blanks survive in one.
-/

set_option autoImplicit false

namespace FlatConfig.Yaml

inductive Style where
  | plain
  | single
  | double
  | literal
  deriving DecidableEq, Repr

structure Spot where
  before : Option Char
  char : Char
  after : Option Char

def spotsAfter (before : Option Char) : List Char → List Spot
  | [] => []
  | c :: rest => ⟨before, c, rest.head?⟩ :: spotsAfter (some c) rest

def spots (text : List Char) : List Spot := spotsAfter none text

def leadingIndicators : List Char := "#,[]\x7b\x7d&*!|>'\"%@`".toList

namespace Spot

def isIndicator (s : Spot) : Bool :=
  match s.before with
  | none =>
    leadingIndicators.contains s.char ||
      ((s.char == '?' || s.char == ':' || s.char == '-') && isSpaceOrEnd s.after)
  | some before =>
    (s.char == ':' && isSpaceOrEnd s.after) ||
      (s.char == '#' && isSpaceOrEnd (some before))

def isBreakBeforeSpace (s : Spot) : Bool := isBreak s.char && s.after == some ' '

def isSpaceBeforeBreak (s : Spot) : Bool := s.char == ' ' && s.after.any isBreak

end Spot

def isMultiline (text : List Char) : Bool := text.any isBreak

def isMarker (text : List Char) : Bool :=
  text.take 3 == ['-', '-', '-'] || text.take 3 == ['.', '.', '.']

def hasOuterSpace (text : List Char) : Bool :=
  let isOuter (c : Char) := c == ' ' || isBreak c
  text.head?.any isOuter || text.getLast?.any isOuter

def needsEscapes (text : List Char) : Bool :=
  !text.all isPrintable || (spots text).any Spot.isSpaceBeforeBreak

def allowsPlain (text : List Char) : Bool :=
  !(isMarker text || (spots text).any Spot.isIndicator || hasOuterSpace text || isMultiline text ||
    needsEscapes text)

def allowsSingle (text : List Char) : Bool :=
  !((spots text).any Spot.isBreakBeforeSpace || needsEscapes text)

def allowsLiteral (text : List Char) : Bool :=
  !(text.isEmpty || text.getLast? == some ' ' || needsEscapes text)

/-- Whether the text, when plain, would be read as something else than text. -/
def isAmbiguous (s : String) : Bool :=
  Plain.resolve s != .text || Plain.hasLeadingZero s.toList

def Style.of (s : String) : Style :=
  let text := s.toList
  if text.contains '\n' then
    if allowsLiteral text then .literal else .double
  else if allowsPlain text && !isAmbiguous s then .plain
  else if allowsSingle text then .single
  else .double

def pad (indent : Nat) : List Char := List.replicate indent ' '

/-- The rest of a quoted text; a line that goes on after a break is indented. -/
def singleBody (indent : Nat) (afterBreak : Bool) : List Char → List Char
  | [] => if afterBreak then pad indent else []
  | c :: rest =>
    if isBreak c then c :: singleBody indent true rest
    else
      (if afterBreak then pad indent else []) ++ (if c = '\'' then ['\'', '\''] else [c]) ++
        singleBody indent false rest

def hexDigits (width n : Nat) : List Char :=
  let digits := (Nat.toDigits 16 n).map Char.toUpper
  List.replicate (width - digits.length) '0' ++ digits

def shortEscape? (c : Char) : Option Char :=
  match c.toNat with
  | 0x00 => some '0'
  | 0x07 => some 'a'
  | 0x08 => some 'b'
  | 0x09 => some 't'
  | 0x0a => some 'n'
  | 0x0b => some 'v'
  | 0x0c => some 'f'
  | 0x0d => some 'r'
  | 0x1b => some 'e'
  | 0x22 => some '"'
  | 0x5c => some '\\'
  | 0x85 => some 'N'
  | 0xa0 => some '_'
  | 0x2028 => some 'L'
  | 0x2029 => some 'P'
  | _ => none

def escape (c : Char) : List Char :=
  if isPrintable c && !isBreak c && c != '"' && c != '\\' then [c]
  else
    match shortEscape? c with
    | some e => ['\\', e]
    | none =>
      if c.toNat ≤ 0xff then '\\' :: 'x' :: hexDigits 2 c.toNat
      else if c.toNat ≤ 0xffff then '\\' :: 'u' :: hexDigits 4 c.toNat
      else '\\' :: 'U' :: hexDigits 8 c.toNat

/-- What the head of a block says of the blanks at the ends of its text. -/
def blockHints (text : List Char) : List Char :=
  let indentation := if text.head?.any fun c => c == ' ' || isBreak c then ['2'] else []
  let chomping := match text.reverse with
    | last :: before =>
      if !isBreak last then ['-']
      else if before.isEmpty || before.head?.any isBreak then ['+']
      else []
    | [] => ['-']
  indentation ++ chomping

def literalBody (indent : Nat) (afterBreak : Bool) : List Char → List Char
  | [] => []
  | c :: rest =>
    if isBreak c then c :: literalBody indent true rest
    else (if afterBreak then pad indent else []) ++ c :: literalBody indent false rest

def text (indent : Nat) (s : String) : List Char :=
  let cs := s.toList
  match Style.of s with
  | .plain => cs
  | .single => '\'' :: singleBody indent false cs ++ ['\'']
  | .double => '"' :: cs.flatMap escape ++ ['"']
  | .literal => '|' :: blockHints cs ++ '\n' :: literalBody indent true cs

def floatFormat : FloatFormat := ⟨FloatFormat.compactRange, ""⟩

def number : Number → List Char
  | .integer n => (toString n).toList
  | .float x => floatFormat.write x

/-- A key that needs no mark of its own: one line and at most 128 bytes. -/
def isSimpleKey (key : String) : Bool := !isMultiline key.toList && key.utf8ByteSize ≤ 128

def endLine (text : List Char) : List Char :=
  if text.getLast?.any isBreak then text else text ++ ['\n']

def keyMark (indent : Nat) (key : String) : List Char :=
  let written := text (indent + 2) key
  if isSimpleKey key then written ++ [':']
  else endLine ('?' :: ' ' :: written) ++ pad indent ++ [':']

mutual
/-- A value after a mark, in a collection in the column `indent`. A collection goes on in the same
line, or begins a line of its own after a simple key. -/
def value (ownLine : Bool) (indent : Nat) : Value → List Char
  | .null => " null".toList
  | .bool true => " true".toList
  | .bool false => " false".toList
  | .number n => ' ' :: number n
  | .string s => ' ' :: text (indent + 2) s
  | .list items =>
    if items.isEmpty then " []".toList
    else if ownLine then '\n' :: pad indent ++ itemLines indent items
    else ' ' :: itemLines (indent + 2) items
  | .mapping entries =>
    if entries.isEmpty then " \x7b\x7d".toList
    else (if ownLine then '\n' :: pad (indent + 2) else [' ']) ++ entryLines (indent + 2) entries

def itemLines (indent : Nat) : List Value → List Char
  | [] => []
  | item :: rest =>
    let line := '-' :: value false indent item
    if rest.isEmpty then line else endLine line ++ pad indent ++ itemLines indent rest

def entryLines (indent : Nat) : List (String × Value) → List Char
  | [] => []
  | (key, v) :: rest =>
    let line := keyMark indent key ++ value (isSimpleKey key) indent v
    if rest.isEmpty then line else endLine line ++ pad indent ++ entryLines indent rest
end

end FlatConfig.Yaml

namespace FlatConfig.Fragment

def toYaml (fragment : Fragment) : String :=
  String.ofList <| Yaml.endLine <|
    if fragment.isEmpty then "\x7b\x7d".toList else Yaml.entryLines 0 fragment

end FlatConfig.Fragment
