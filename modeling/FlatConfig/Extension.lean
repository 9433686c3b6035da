import FlatConfig.Decoding
import FlatConfig.Template

set_option autoImplicit false

namespace FlatConfig

/-- The top-level fields that expansion consumes. -/
inductive Extension where
  | instructionSets
  | pathInstructions
  | ruleCollections
  deriving DecidableEq, Repr

def Extension.key : Extension → String
  | .instructionSets => "instruction_sets"
  | .pathInstructions => "enhanced_path_instructions"
  | .ruleCollections => "rule_collections"

def Extension.all : List Extension := [.instructionSets, .pathInstructions, .ruleCollections]

def Fragment.entry? (key : String) (value : Option Value) : Fragment :=
  value.toList.map (key, ·)

/-- A named block of review instructions; the text is a template. -/
structure InstructionSet where
  description : Option String
  instructions : String
  deriving DecidableEq, Repr

namespace InstructionSet

def check : String → Decoder Unit
  | "description", v => discard (Decoder.optional Decoder.string v)
  | "instructions", v => discard (Decoder.string v)
  | _, _ => .ok ()

def decode : Decoder InstructionSet
  | .mapping entries => do
    Decoder.checkInOrder check entries
    let description ← Decoder.field entries "description" (Decoder.optional Decoder.string)
    match ← Decoder.field entries "instructions" Decoder.string with
    | some instructions => return ⟨description.join, instructions⟩
    | none => .error (.missingField "instructions")
  | .list items => do
    let description ← Decoder.element items 0 (Decoder.optional Decoder.string)
    match ← Decoder.element items 1 Decoder.string with
    | some instructions =>
      Decoder.atMost 2 items
      return ⟨description.join, instructions⟩
    | none => .error (.tooShort 1 .instructionSet)
  | v => Decoder.wrong v (.record .instructionSet)

def encode (set : InstructionSet) : Value :=
  .mapping (Fragment.entry? "description" (set.description.map .string) ++
    [("instructions", .string set.instructions)])

end InstructionSet

structure InstructionRef where
  set : String
  parameters : Fragment
  deriving DecidableEq, Repr

namespace InstructionRef

def check : String → Decoder Unit
  | "use", v => discard (Decoder.string v)
  | "with", v => discard (Decoder.map v)
  | _, _ => .ok ()

def decode : Decoder InstructionRef
  | .mapping entries => do
    Decoder.checkInOrder check entries
    let parameters ← Decoder.field entries "with" Decoder.map
    match ← Decoder.field entries "use" Decoder.string with
    | some set => return ⟨set, parameters.getD []⟩
    | none => .error (.missingField "use")
  | .list items => do
    match ← Decoder.element items 0 Decoder.string with
    | some set =>
      let parameters ← Decoder.element items 1 Decoder.map
      Decoder.atMost 2 items
      return ⟨set, parameters.getD []⟩
    | none => .error (.tooShort 0 .instructionRef)
  | v => Decoder.wrong v (.record .instructionRef)

def encode (reference : InstructionRef) : Value :=
  .mapping (("use", .string reference.set) ::
    Fragment.entry? "with"
      (if reference.parameters.isEmpty then none else some (.mapping reference.parameters)))

/-- A parameter as text: a string as it is, null as nothing, any other value as JSON. -/
def parameterText : Value → String
  | .string s => s
  | .null => ""
  | v => v.toJson

def templateParams (reference : InstructionRef) : Template.Params :=
  reference.parameters.map fun (key, v) => (key, parameterText v)

end InstructionRef

inductive InstructionSource where
  | text (s : String)
  | reference (r : InstructionRef)
  deriving DecidableEq, Repr

namespace InstructionSource

/-- Why a reference cannot be read is not told. -/
def decode : Decoder InstructionSource
  | .string s => .ok (.text s)
  | v =>
    match InstructionRef.decode v with
    | .ok r => .ok (.reference r)
    | .error _ => .error .noVariant

def encode : InstructionSource → Value
  | .text s => .string s
  | .reference r => r.encode

end InstructionSource

structure PathInstruction where
  path : String
  instructions : InstructionSource
  deriving DecidableEq, Repr

namespace PathInstruction

def check : String → Decoder Unit
  | "path", v => discard (Decoder.string v)
  | "instructions", v => discard (InstructionSource.decode v)
  | _, _ => .ok ()

def decode : Decoder PathInstruction
  | .mapping entries => do
    Decoder.checkInOrder check entries
    let path ← Decoder.field entries "path" Decoder.string
    let instructions ← Decoder.field entries "instructions" InstructionSource.decode
    match path, instructions with
    | some path, some instructions => return ⟨path, instructions⟩
    | none, _ => .error (.missingField "path")
    | _, none => .error (.missingField "instructions")
  | .list items => do
    match ← Decoder.element items 0 Decoder.string with
    | none => .error (.tooShort 0 .pathInstruction)
    | some path =>
      match ← Decoder.element items 1 InstructionSource.decode with
      | none => .error (.tooShort 1 .pathInstruction)
      | some instructions =>
        Decoder.atMost 2 items
        return ⟨path, instructions⟩
  | v => Decoder.wrong v (.record .pathInstruction)

def encode (instruction : PathInstruction) : Value :=
  .mapping [("path", .string instruction.path), ("instructions", instruction.instructions.encode)]

end PathInstruction

structure RuleCollection where
  description : Option String
  rules : List String
  packages : Option (List String)
  deriving DecidableEq, Repr

namespace RuleCollection

def check : String → Decoder Unit
  | "description", v => discard (Decoder.optional Decoder.string v)
  | "rules", v => discard (Decoder.listOf Decoder.string v)
  | "packages", v => discard (Decoder.optional (Decoder.listOf Decoder.string) v)
  | _, _ => .ok ()

def decode : Decoder RuleCollection
  | .mapping entries => do
    Decoder.checkInOrder check entries
    let description ← Decoder.field entries "description" (Decoder.optional Decoder.string)
    let rules ← Decoder.field entries "rules" (Decoder.listOf Decoder.string)
    let packages ←
      Decoder.field entries "packages" (Decoder.optional (Decoder.listOf Decoder.string))
    return ⟨description.join, rules.getD [], packages.join⟩
  | .list items => do
    let description ← Decoder.element items 0 (Decoder.optional Decoder.string)
    let rules ← Decoder.element items 1 (Decoder.listOf Decoder.string)
    let packages ← Decoder.element items 2 (Decoder.optional (Decoder.listOf Decoder.string))
    Decoder.atMost 3 items
    return ⟨description.join, rules.getD [], packages.join⟩
  | v => Decoder.wrong v (.record .ruleCollection)

def encodeStrings (items : List String) : Value := .list (items.map .string)

def encode (collection : RuleCollection) : Value :=
  .mapping (Fragment.entry? "description" (collection.description.map .string) ++
    ("rules", encodeStrings collection.rules) ::
      Fragment.entry? "packages" (collection.packages.map encodeStrings))

end RuleCollection
end FlatConfig
