import FlatConfig.Event
import FlatConfig.Extension

set_option autoImplicit false

namespace FlatConfig

/-- The places below the top level that expansion writes to. -/
inductive Container where
  | reviews
  | pathInstructions
  | tools
  | astGrep
  | packages
  | ruleDirs
  deriving DecidableEq, Repr

namespace Container

def key : Container → String
  | .reviews => "reviews"
  | .pathInstructions => "path_instructions"
  | .tools => "tools"
  | .astGrep => "ast-grep"
  | .packages => "packages"
  | .ruleDirs => "rule_dirs"

def path : Container → String
  | .reviews => "reviews"
  | .pathInstructions => "reviews.path_instructions"
  | .tools => "reviews.tools"
  | .astGrep => "reviews.tools.ast-grep"
  | .packages => "reviews.tools.ast-grep.packages"
  | .ruleDirs => "reviews.tools.ast-grep.rule_dirs"

def expected : Container → String
  | .reviews | .tools | .astGrep => "a mapping"
  | .pathInstructions | .packages | .ruleDirs => "a list"

end Container

inductive ValueKind where
  | null
  | boolean
  | number
  | string
  | list
  | mapping
  deriving DecidableEq, Repr

namespace ValueKind

def of : Value → ValueKind
  | .null => .null
  | .bool _ => .boolean
  | .number _ => .number
  | .string _ => .string
  | .list _ => .list
  | .mapping _ => .mapping

def text : ValueKind → String
  | .null => "null"
  | .boolean => "a boolean"
  | .number => "a number"
  | .string => "a string"
  | .list => "a list"
  | .mapping => "a mapping"

end ValueKind

inductive Error where
  | version
  | entryKind (kind : ValueKind)
  | shape (container : Container)
  | extension (field : Extension) (cause : DecodeError)
  | raised (message : String)
  | passedOn (inner : Error)
  | sourceNotFound (path : String)
  | unsupportedFormat (path : String)
  | unreadable
  | malformedYaml
  | malformedJson
  deriving DecidableEq, Repr

inductive Failure where
  | raised (message : String)
  | passedOn (error : Error)
  deriving DecidableEq, Repr

namespace Error

def ofFailure : Failure → Error
  | .raised message => .raised message
  | .passedOn error => .passedOn error

/-- None for the errors whose wording is left to the reader that found them. -/
def message? : Error → Option String
  | .version => some "Version must be a number"
  | .entryKind kind => some ("Configuration entries must be mappings or lists, found " ++ kind.text)
  | .shape c => some ("`" ++ c.path ++ "` must be " ++ c.expected)
  | .extension field cause => some ("invalid `" ++ field.key ++ "`: " ++ cause.message)
  | .raised message => some message
  | .passedOn inner => inner.message?
  | .sourceNotFound path => some ("Configuration file not found: " ++ path)
  | .unsupportedFormat path => some ("Unsupported configuration file format: " ++ path)
  | .unreadable | .malformedYaml | .malformedJson => none

def cause? : Error → Option String
  | .extension _ cause => some cause.message
  | .passedOn inner => inner.cause?
  | _ => none

def isInvalidConfig : Error → Bool
  | .version | .entryKind _ => true
  | _ => false

end Error

/-- A computation that reports events and may fail. -/
abbrev Attempt := ExceptT Error Logged

namespace Attempt

def tell (event : Event) : Attempt Unit := ExceptT.lift (Logged.tell event)

def fail {α : Type} (error : Error) : Attempt α := ExceptT.mk (pure (.error error))

def ofExcept {α : Type} (result : Except Error α) : Attempt α := ExceptT.mk (pure result)

end Attempt
end FlatConfig
