import FlatConfig.Error

/-!
Lowering the extensions of a merged configuration into fields of its result.

Path instructions become entries of `reviews.path_instructions`, with the text of the instruction
set that they refer to. The packages of rule collections join those of the `ast-grep` tool. Entries
and sets that cannot be read are passed over; only a wrongly shaped container is an error.
-/

set_option autoImplicit false

namespace FlatConfig

namespace Container

/-- What a mapping has in this place; a place that is not set counts as empty. -/
def mapping (c : Container) (outer : Fragment) : Except Error Fragment :=
  match Value.set? (outer.get? c.key) with
  | none => .ok []
  | some (.mapping entries) => .ok entries
  | some _ => .error (.shape c)

def list (c : Container) (outer : Fragment) : Except Error (List Value) :=
  match Value.set? (outer.get? c.key) with
  | none => .ok []
  | some (.list items) => .ok items
  | some _ => .error (.shape c)

def within (c : Container) (work : Fragment → Attempt Fragment) (outer : Fragment) :
    Attempt Fragment := do
  let inner ← Attempt.ofExcept (c.mapping outer)
  let inner ← work inner
  return outer.insert c.key (.mapping inner)

end Container

namespace Expand

def decodeMapping (field : Extension) : Value → Except Error Fragment
  | .mapping entries => .ok entries
  | v => .error (.extension field (.invalidType (.of v) .map))

def decodeList (field : Extension) : Value → Except Error (List Value)
  | .list items => .ok items
  | v => .error (.extension field (.invalidType (.of v) .sequence))

/-- A set that cannot be read counts as missing. -/
def findSet (sets : Fragment) (name : String) : Logged (Option InstructionSet) :=
  match sets.get? name with
  | none => pure none
  | some v =>
    match InstructionSet.decode v with
    | .ok set => pure (some set)
    | .error e => ⟨[.malformedInstructionSet name e], none⟩

def lowered (path text : String) : Value :=
  .mapping [("path", .string path), ("instructions", .string text)]

/-- Inline text is taken as it is; a reference takes the rendered text of its set. -/
def lowerEntry (sets : Fragment) (entry : Value) : Logged (Option Value) :=
  match PathInstruction.decode entry with
  | .error e => ⟨[.malformedPathInstruction e], none⟩
  | .ok ⟨path, .text s⟩ => pure (some (lowered path s))
  | .ok ⟨path, .reference r⟩ => do
    match ← findSet sets r.set with
    | some set =>
      let rendered := Template.render set.instructions r.templateParams
      ⟨rendered.nested.map .nestedBlock, some (lowered path rendered.text)⟩
    | none => ⟨[.unknownInstructionSet path r.set], none⟩

def lowerEntries (sets : Fragment) : List Value → Logged (List Value)
  | [] => pure []
  | entry :: rest => do
    let first ← lowerEntry sets entry
    let more ← lowerEntries sets rest
    return first.toList ++ more

def lowerPathInstructions (sets : Fragment) (entries : List Value) : Fragment → Attempt Fragment :=
  Container.reviews.within fun reviews => do
    let existing ← Attempt.ofExcept (Container.pathInstructions.list reviews)
    let added ← ExceptT.lift (lowerEntries sets entries)
    return reviews.insert Container.pathInstructions.key (.list (existing ++ added))

def dedup (values : List Value) : List Value :=
  values.foldl (fun kept v => if kept.any (·.same v) then kept else kept ++ [v]) []

def collectPackages : Fragment → Attempt (List Value)
  | [] => pure []
  | (name, v) :: rest => do
    let collection ← Attempt.ofExcept
      ((RuleCollection.decode v).mapError (.extension .ruleCollections))
    Attempt.tell (.ruleCollection name collection.rules.length)
    let more ← collectPackages rest
    return (collection.packages.getD []).map .string ++ more

def lowerRuleCollections (collections : Fragment) : Fragment → Attempt Fragment :=
  Container.reviews.within <| Container.tools.within <| Container.astGrep.within fun astGrep => do
    let packages ← Attempt.ofExcept (Container.packages.list astGrep)
    let ruleDirs ← Attempt.ofExcept (Container.ruleDirs.list astGrep)
    let added ← collectPackages collections
    return (astGrep.insert Container.packages.key (.list (dedup (packages ++ added)))).insert
      Container.ruleDirs.key (.list (dedup ruleDirs))

end Expand

namespace Fragment

def withoutExtensions (fragment : Fragment) : Fragment :=
  Extension.all.foldl (fun f field => f.erase field.key) fragment

def extension? (fragment : Fragment) (field : Extension) : Option Value :=
  Value.set? (fragment.get? field.key)

/-- Path instructions are lowered only together with instruction sets. -/
def expand (fragment : Fragment) : Attempt Fragment := do
  let config := fragment.withoutExtensions
  let config ←
    match fragment.extension? .instructionSets, fragment.extension? .pathInstructions with
    | some sets, some entries => do
      let sets ← Attempt.ofExcept (Expand.decodeMapping .instructionSets sets)
      let entries ← Attempt.ofExcept (Expand.decodeList .pathInstructions entries)
      Expand.lowerPathInstructions sets entries config
    | _, _ => pure config
  match fragment.extension? .ruleCollections with
  | some collections => do
    let collections ← Attempt.ofExcept (Expand.decodeMapping .ruleCollections collections)
    Expand.lowerRuleCollections collections config
  | none => pure config

end Fragment
end FlatConfig
