import FlatConfig.Json.Writer
import FlatConfig.Text.Quoted

/-!
Decoding values into records.

A record is written as a mapping or as the list of its fields in their order. In a mapping unknown
keys are ignored, the fields are read in the mapping's own order, and only then is one found
missing. In a list the last fields may be left out when they have a default.
-/

set_option autoImplicit false

namespace FlatConfig

inductive Shown where
  | null
  | bool (b : Bool)
  | number (n : Number)
  | string (s : String)
  | sequence
  | map
  deriving DecidableEq, Repr

namespace Shown

def of : Value → Shown
  | .null => .null
  | .bool b => .bool b
  | .number n => .number n
  | .string s => .string s
  | .list _ => .sequence
  | .mapping _ => .map

def text : Shown → String
  | .null => "null"
  | .bool b => "boolean " ++ ticks (toString b)
  | .number (.integer n) => "integer " ++ ticks (toString n)
  | .number (.float x) => "floating point " ++ ticks (String.ofList (Json.number (.float x)))
  | .string s => "string " ++ Text.quoted s
  | .sequence => "sequence"
  | .map => "map"
where
  ticks (s : String) : String := "`" ++ s ++ "`"

end Shown

inductive Record where
  | instructionSet
  | pathInstruction
  | instructionRef
  | ruleCollection
  deriving DecidableEq, Repr

def Record.name : Record → String
  | .instructionSet => "InstructionSet"
  | .pathInstruction => "EnhancedPathInstruction"
  | .instructionRef => "InstructionRef"
  | .ruleCollection => "RuleCollection"

inductive Wanted where
  | map
  | sequence
  | string
  | record (r : Record)
  deriving DecidableEq, Repr

def Wanted.text : Wanted → String
  | .map => "a map"
  | .sequence => "a sequence"
  | .string => "a string"
  | .record r => "struct " ++ r.name

inductive DecodeError where
  | invalidType (got : Shown) (wanted : Wanted)
  | missingField (name : String)
  | tooShort (length : Nat) (r : Record)
  | tooLong (length : Nat)
  | noVariant
  deriving DecidableEq, Repr

def DecodeError.message : DecodeError → String
  | .invalidType got wanted => "invalid type: " ++ got.text ++ ", expected " ++ wanted.text
  | .missingField name => "missing field `" ++ name ++ "`"
  | .tooShort length r =>
    "invalid length " ++ toString length ++ ", expected struct " ++ r.name ++ " with 2 elements"
  | .tooLong length =>
    "invalid length " ++ toString length ++ ", expected fewer elements in array"
  | .noVariant => "data did not match any variant of untagged enum InstructionSource"

abbrev Decoder (α : Type) := Value → Except DecodeError α

namespace Decoder

def wrong {α : Type} (v : Value) (wanted : Wanted) : Except DecodeError α :=
  .error (.invalidType (.of v) wanted)

def string : Decoder String
  | .string s => .ok s
  | v => wrong v .string

def sequence : Decoder (List Value)
  | .list items => .ok items
  | v => wrong v .sequence

def map : Decoder Fragment
  | .mapping entries => .ok entries
  | v => wrong v .map

def listOf {α : Type} (item : Decoder α) : Decoder (List α) := fun v => do
  (← sequence v).mapM item

def optional {α : Type} (item : Decoder α) : Decoder (Option α)
  | .null => .ok none
  | v => some <$> item v

def field {α : Type} (entries : Fragment) (key : String) (item : Decoder α) :
    Except DecodeError (Option α) :=
  match entries.get? key with
  | some v => some <$> item v
  | none => .ok none

def element {α : Type} (items : List Value) (index : Nat) (item : Decoder α) :
    Except DecodeError (Option α) :=
  match items[index]? with
  | some v => some <$> item v
  | none => .ok none

/-- Fails at the first entry, in order, whose field cannot be read. -/
def checkInOrder (check : String → Decoder Unit) (entries : Fragment) : Except DecodeError Unit :=
  entries.forM fun (key, v) => check key v

def atMost (count : Nat) (items : List Value) : Except DecodeError Unit :=
  if items.length > count then .error (.tooLong items.length) else .ok ()

end Decoder
end FlatConfig
