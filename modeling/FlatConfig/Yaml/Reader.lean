import FlatConfig.Yaml.Node
import FlatConfig.Yaml.Plain

/-!
Configuration values of YAML documents.

A scalar without a tag means what its plain text says; a quoted one is text. The keys of a mapping
are scalars, taken as text whatever they would mean as values.
-/

set_option autoImplicit false

namespace FlatConfig.Yaml

def plainValue (text : String) : Option Value :=
  match Plain.resolve text with
  | .null | .notFinite => some .null
  | .bool b => some (.bool b)
  | .number n => some (.number n)
  | .tooLarge => none
  | .text => some (.string text)

/-- A tag of a scalar type asks for a text of that type, quoted or not. -/
def scalarValue (tag : Option Tag) (text : String) (plain : Bool) : Option Value :=
  match tag with
  | none => if plain then plainValue text else some (.string text)
  | some .other => some (.string text)
  | some .local => none
  | some .bool => (Plain.bool? text).map .bool
  | some .int =>
    match (Plain.integer? text.toList).bind Plain.ofInteger with
    | some (.number n) => some (.number n)
    | _ => none
  | some .float =>
    if Plain.isNotFinite text then some .null
    else (Plain.taggedFloat? text.toList).map fun x => .number (.float x)
  | some .null => if Plain.isNull text && text != "" then some .null else none

/-- Reading with a bound on the aliases that may still be followed. -/
abbrev Build := StateT Nat Option

namespace Build

def fail {α : Type} : Build α := fun _ => none

def follow (anchored : List (Nat × Node)) : Node → Build Node
  | .alias anchor => do
    match ← get with
    | 0 => fail
    | jumps + 1 =>
      set jumps
      match anchored.reverse.lookup anchor with
      | some node => return node
      | none => fail
  | node => return node

def key (anchored : List (Nat × Node)) (node : Node) : Build String := do
  match ← follow anchored node with
  | .scalar _ _ text _ => return text
  | _ => fail

def value (anchored : List (Nat × Node)) : Nat → Node → Build Value
  | 0, node => do
    match ← follow anchored node with
    | .scalar _ tag text plain => scalarValue tag text plain
    | _ => fail
  | depth + 1, node => do
    match ← follow anchored node with
    | .scalar _ tag text plain => scalarValue tag text plain
    | .sequence _ tag items =>
      if tag == some .local then fail
      else return .list (← items.mapM (value anchored depth))
    | .mapping _ tag entries =>
      if tag == some .local then fail
      else
        let entries ← entries.mapM fun (k, v) => do
          return (← key anchored k, ← value anchored depth v)
        return .mapping (Fragment.ofEntries entries)
    | .alias _ => fail

end Build

def maxDepth : Nat := 128

def jumpsPerEvent : Nat := 100

def read? (text : String) : Option Value := do
  match ← document? (← tokens? text) with
  | none => return .null
  | some node =>
    (Build.value node.anchored maxDepth node).run' (jumpsPerEvent * node.eventCount)

end FlatConfig.Yaml
