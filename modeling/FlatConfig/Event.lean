import FlatConfig.Decoding

set_option autoImplicit false

namespace FlatConfig

inductive Level where
  | error
  | warn
  | info
  | debug
  | trace
  deriving DecidableEq, Repr

namespace Level

def name : Level → String
  | .error => "ERROR"
  | .warn => "WARN"
  | .info => "INFO"
  | .debug => "DEBUG"
  | .trace => "TRACE"

/-- The larger the rank, the more a filter at this level lets through. -/
def rank : Level → Nat
  | .error => 1
  | .warn => 2
  | .info => 3
  | .debug => 4
  | .trace => 5

end Level

inductive Event where
  | parsedSource (path : String)
  | loadedSource (path : String)
  /-- The position counts the fragments before the function. -/
  | invokingFunction (name : String) (position : Nat)
  | flattened (count : Nat)
  | merged (keys : Nat)
  | nestedBlock (condition : String)
  | malformedPathInstruction (error : DecodeError)
  | unknownInstructionSet (path set : String)
  | malformedInstructionSet (set : String) (error : DecodeError)
  | ruleCollection (name : String) (rules : Nat)
  | wroteConfiguration (path : String)
  deriving DecidableEq, Repr

namespace Event

def level : Event → Level
  | .loadedSource _ | .ruleCollection _ _ | .wroteConfiguration _ => .info
  | .nestedBlock _ => .warn
  | .parsedSource _ | .invokingFunction _ _ | .flattened _ | .merged _
  | .malformedPathInstruction _ | .unknownInstructionSet _ _
  | .malformedInstructionSet _ _ => .debug

def target : Event → String
  | .parsedSource _ | .loadedSource _ => "usagi::config::loader"
  | .invokingFunction _ _ | .flattened _ => "usagi::config::flatten"
  | .merged _ => "usagi::config::resolver"
  | .nestedBlock _ => "usagi::template"
  | .malformedPathInstruction _ | .unknownInstructionSet _ _ | .malformedInstructionSet _ _
  | .ruleCollection _ _ => "usagi::config::expand"
  | .wroteConfiguration _ => "usagi"

def message : Event → String
  | .parsedSource _ => "Parsed configuration source"
  | .loadedSource _ => "Loaded configuration source"
  | .invokingFunction _ _ => "Invoking function configuration item"
  | .flattened _ => "Flattened configuration items"
  | .merged _ => "Merged configuration fragments"
  | .nestedBlock _ => "Nested conditional blocks are not supported"
  | .malformedPathInstruction _ => "Skipping malformed path instruction"
  | .unknownInstructionSet _ _ => "Skipping path instruction with unknown instruction set"
  | .malformedInstructionSet _ _ => "Ignoring malformed instruction set"
  | .ruleCollection _ _ => "Processing rules from collection"
  | .wroteConfiguration _ => "Wrote configuration"

def fields : Event → List (String × String)
  | .parsedSource path | .loadedSource path | .wroteConfiguration path => [("path", path)]
  | .invokingFunction _ position => [("position", toString position)]
  | .flattened count => [("count", toString count)]
  | .merged keys => [("keys", toString keys)]
  | .nestedBlock condition => [("condition", condition)]
  | .malformedPathInstruction error => [("error", error.message)]
  | .unknownInstructionSet path set => [("path", path), ("instruction_set", set)]
  | .malformedInstructionSet set error => [("instruction_set", set), ("error", error.message)]
  | .ruleCollection name rules => [("collection", name), ("rules", toString rules)]

def fieldNames (event : Event) : List String := "message" :: event.fields.map Prod.fst

def invoked? : Event → Option String
  | .invokingFunction name _ => some name
  | _ => none

end Event

/-- A result together with the events on the way to it, in order. -/
structure Logged (α : Type) where
  log : List Event
  value : α

namespace Logged

def tell (event : Event) : Logged Unit := ⟨[event], ()⟩

instance : Monad Logged where
  pure a := ⟨[], a⟩
  bind x f := ⟨x.log ++ (f x.value).log, (f x.value).value⟩

@[simp] theorem log_pure {α : Type} (a : α) : (pure a : Logged α).log = [] := rfl

@[simp] theorem value_pure {α : Type} (a : α) : (pure a : Logged α).value = a := rfl

@[simp] theorem log_bind {α β : Type} (x : Logged α) (f : α → Logged β) :
    (x >>= f).log = x.log ++ (f x.value).log := rfl

@[simp] theorem value_bind {α β : Type} (x : Logged α) (f : α → Logged β) :
    (x >>= f).value = (f x.value).value := rfl

def calls {α : Type} (x : Logged α) : List String := x.log.filterMap Event.invoked?

end Logged
end FlatConfig
