import FlatConfig.Text.Blank
import FlatConfig.Text.Match

/-!
Instruction templates.

A placeholder `{{ name }}` stands for a parameter, and a block `{{#if name}} … {{/if}}` is kept when
its parameter is truthy. The parameters are put in one after the other, so a value may hold a
placeholder for a later one; the blocks are decided on the text that results. A block ends at the
first closing mark, whatever openers stand in its body.
-/

set_option autoImplicit false

namespace FlatConfig.Template

/-- Parameters by name, in the order in which they are put in. -/
abbrev Params := List (String × String)

def opening : List Char := ['{', '{']

def closing : List Char := ['}', '}']

def blockOpening : List Char := ['{', '{', '#', 'i', 'f']

def blockClosing : List Char := ['{', '{', '/', 'i', 'f', '}', '}']

/-- The text after `key`, blanks and the closing braces; blanks may stand before `key` too. -/
def afterKey? (key : List Char) : List Char → Option (List Char)
  | [] => closeAfter? []
  | c :: text =>
    match closeAfter? (c :: text) with
    | some rest => some rest
    | none => if Text.isAsciiBlank c then afterKey? key text else none
where
  closeAfter? (text : List Char) : Option (List Char) :=
    (Text.strip? key text).bind fun rest => Text.strip? closing (rest.dropWhile Text.isAsciiBlank)

def placeholder? (key : List Char) : Text.Matcher Unit := fun text => do
  let rest ← Text.strip? opening text
  let rest ← afterKey? key rest
  return ((), rest)

/-- Every placeholder for `key` replaced by `value`, which is not looked at again. -/
def substitute (key value text : List Char) : List Char :=
  Text.replace (placeholder? key) (fun _ => value) text

def maxSearchSize : Nat := 10 * 1024 * 1024

/-- The bytes of the search for `key`: a state for each of its characters, and those for the braces
and the blanks. -/
def searchSize (key : List Char) : Nat := 32 * (key.length + 13)

def isSearchable (key : List Char) : Bool := searchSize key ≤ maxSearchSize

structure Block where
  condition : List Char
  body : List Char
  deriving DecidableEq, Repr

/-- The condition is the run of characters other than `}` between the opening mark and the braces:
a blank and at least one character more. -/
def block? : Text.Matcher Block := fun text => do
  let rest ← Text.strip? blockOpening text
  let condition := rest.takeWhile (· != '}')
  guard (condition.length ≥ 2 && condition.head?.any Text.isAsciiBlank)
  let rest ← Text.strip? closing (rest.dropWhile (· != '}'))
  let (body, rest) ← Text.cut? blockClosing rest
  return (⟨condition, body⟩, rest)

def Block.name (b : Block) : String := String.ofList (Text.trim b.condition)

def Block.isNested (b : Block) : Bool := Text.contains blockOpening b.body

def isTruthy : Option String → Bool
  | some value => value != "" && value != "false"
  | none => false

/-- Of parameters with one name the first decides. -/
def Block.isKept (params : Params) (b : Block) : Bool := isTruthy (params.lookup b.name)

structure Rendered where
  text : String
  /-- The conditions of the blocks whose body opens another block. -/
  nested : List String
  deriving DecidableEq, Repr

/-- A parameter whose name is too long to be searched for is passed over. -/
def substituteAll (params : Params) (text : List Char) : List Char :=
  params.foldl (fun text (key, value) =>
    if isSearchable key.toList then substitute key.toList value.toList text else text) text

def blocks (text : List Char) : List Block :=
  (Text.pieces block? text).filterMap fun
    | .char _ => none
    | .found b => some b

def decideBlocks (params : Params) (text : List Char) : List Char :=
  Text.replace block? (fun b => if b.isKept params then b.body else []) text

def render (template : String) (params : Params) : Rendered :=
  let text := substituteAll params template.toList
  { text := String.ofList (decideBlocks params text)
    nested := ((blocks text).filter Block.isNested).map Block.name }

end FlatConfig.Template
