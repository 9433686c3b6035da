import FlatConfig.Event
import FlatConfig.Text.Alphanumeric
import FlatConfig.Text.Blank
import FlatConfig.Text.Pattern

/-!
Directives of a log filter, as `target[span{field=value}]=level` with most parts left out.

A part that is left out restricts nothing, and without a level everything is shown. A word alone is
a level if it can be one, else a target.
-/

set_option autoImplicit false

namespace FlatConfig.Log

def levels : List Level := [.error, .warn, .info, .debug, .trace]

def rank? (text : String) : Option Nat :=
  let digits := match text.toList with
    | '+' :: rest => rest
    | cs => cs
  if !digits.isEmpty && digits.all Char.isDigit then
    let n := digits.foldl (fun n d => 10 * n + (d.toNat - '0'.toNat)) 0
    if n ≤ 5 then some n else none
  else
    let word := String.ofList (text.toList.map Char.toUpper)
    if word == "OFF" then some 0
    else (levels.find? fun level => level.name == word).map Level.rank

inductive DirectiveError where
  | malformed
  | level
  | value
  deriving DecidableEq, Repr

def DirectiveError.message : DirectiveError → String
  | .malformed => "invalid filter directive"
  | .level =>
    "error parsing level filter: expected one of \"off\", \"error\", \"warn\", \"info\", " ++
      "\"debug\", \"trace\", or a number 0-5"
  | .value => "invalid field filter: error building NFA"

/-- A field that has to be there. Values are compared in spans only. -/
structure FieldFilter where
  name : String
  hasValue : Bool
  deriving DecidableEq, Repr

structure Directive where
  target : Option String
  span : Option String
  field : Option FieldFilter
  rank : Nat
  deriving DecidableEq, Repr

def isSigned : List Char → Bool
  | '+' :: digits => !digits.isEmpty && digits.all Char.isDigit
  | _ => false

def FieldFilter.parse (text : List Char) : Except DirectiveError FieldFilter :=
  let name := String.ofList (text.takeWhile (· != '='))
  match text.dropWhile (· != '=') with
  | [] => if text.isEmpty then .error .malformed else .ok ⟨name, false⟩
  | _ :: rest =>
    let value := rest.takeWhile (· != '=')
    if isSigned value || Text.isPattern value then .ok ⟨name, true⟩ else .error .value

inductive Part where
  | start
  | name (first : Nat)
  | span (first : Nat)
  | field (first : Nat)
  | fieldEnd
  | spanEnd
  | level (first : Nat)
  deriving DecidableEq, Repr

structure Draft where
  part : Part
  directive : Directive
  deriving DecidableEq, Repr

namespace Draft

def start : Draft := ⟨.start, ⟨none, none, none, Level.trace.rank⟩⟩

def slice (text : List Char) (first last : Nat) : List Char := (text.drop first).take (last - first)

def startsName (c : Char) : Bool := c == '-' || c == ':' || c == '_' || Text.isAlphanumeric c

def step (text : List Char) (draft : Draft) (c : Char) (index : Nat) :
    Except DirectiveError Draft :=
  let upToHere (first : Nat) := slice text first index
  let d := draft.directive
  match draft.part, c with
  | .start, '[' => .ok ⟨.span (index + 1), d⟩
  | .start, c => if startsName c then .ok ⟨.name index, d⟩ else .error .malformed
  | .name first, '=' =>
    .ok ⟨.level (index + 1), { d with target := some (String.ofList (upToHere first)) }⟩
  | .name first, '[' =>
    .ok ⟨.span (index + 1), { d with target := some (String.ofList (upToHere first)) }⟩
  | .span first, ']' => .ok ⟨.spanEnd, { d with span := some (String.ofList (upToHere first)) }⟩
  | .span first, '{' =>
    let name := upToHere first
    .ok ⟨.field (index + 1),
      { d with span := if name.isEmpty then none else some (String.ofList name) }⟩
  | .field first, '}' => do
    let field ← FieldFilter.parse (upToHere first)
    return ⟨.fieldEnd, { d with field := some field }⟩
  | .fieldEnd, ']' => .ok ⟨.spanEnd, d⟩
  | .spanEnd, '=' => .ok ⟨.level (index + 1), d⟩
  | .fieldEnd, _ | .spanEnd, _ => .error .malformed
  | .name _, _ | .span _, _ | .field _, _ | .level _, _ => .ok draft

def finish (text : List Char) (draft : Draft) : Except DirectiveError Directive :=
  let d := draft.directive
  match draft.part with
  | .name first =>
    let word := String.ofList (text.drop first)
    match rank? word with
    | some rank => .ok { d with rank }
    | none => .ok { d with target := some word }
  | .level first =>
    let word := String.ofList (text.drop first)
    if word.isEmpty then .ok d
    else
      match rank? word with
      | some rank => .ok { d with rank }
      | none => .error .level
  | .spanEnd => .ok d
  | .start | .span _ | .field _ | .fieldEnd => .error .malformed

end Draft

/-- Blanks around a directive do not count when its parts are told apart, but the parts are cut out
of the text with its blanks. -/
def Directive.parse (text : String) : Except DirectiveError Directive := do
  let cs := text.toList
  let draft ← (Text.trim cs).zipIdx.foldlM (fun draft (c, index) => draft.step cs c index)
    Draft.start
  draft.finish cs

def directives (text : String) : List Directive × List String :=
  let parsed := ((text.splitOn ",").filter (· != "")).map fun part => (part, Directive.parse part)
  (parsed.filterMap fun (_, result) => result.toOption,
    parsed.filterMap fun
      | (_, .ok _) => none
      | (part, .error e) => some ("ignoring `" ++ part ++ "`: " ++ e.message))

end FlatConfig.Log
