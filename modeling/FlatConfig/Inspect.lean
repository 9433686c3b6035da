import FlatConfig.Extension

set_option autoImplicit false

namespace FlatConfig

def sortByName {α : Type} (entries : List (String × α)) : List (String × α) :=
  entries.mergeSort fun a b => a.1 ≤ b.1

def Fragment.members (fragment : Fragment) (field : Extension) : Fragment :=
  match fragment.get? field.key with
  | some (.mapping entries) => entries
  | _ => []

namespace InstructionSet

/-- The template of a set; one without a text is reported as a function. -/
def inspect (name : String) (set : Value) : String :=
  match set.get? "instructions" with
  | some (.string s) => s
  | _ => "[Function: " ++ name ++ "]"

end InstructionSet

namespace RuleCollection

def textItem? : Value → Option String
  | .string s => some s
  | _ => none

def inspect (collection : Value) : List String :=
  match collection.get? "rules" with
  | some (.list rules) => rules.filterMap textItem?
  | _ => []

end RuleCollection

namespace Fragment

def instructionSets (fragment : Fragment) : List (String × String) :=
  sortByName ((fragment.members .instructionSets).map fun (name, set) =>
    (name, InstructionSet.inspect name set))

def ruleCollections (fragment : Fragment) : List (String × List String) :=
  sortByName ((fragment.members .ruleCollections).map fun (name, collection) =>
    (name, RuleCollection.inspect collection))

end Fragment
end FlatConfig
