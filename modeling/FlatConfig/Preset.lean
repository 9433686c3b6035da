import FlatConfig.Value

set_option autoImplicit false

namespace FlatConfig

inductive Preset where
  | basic
  | strict
  deriving DecidableEq, Repr

namespace Preset

def all : List Preset := [.basic, .strict]

def name : Preset → String
  | .basic => "basic"
  | .strict => "strict"

def ofName? (name : String) : Option Preset := all.find? fun p => p.name == name

def fragment : Preset → Fragment
  | .basic =>
    [("version", .number (.integer 2)),
      ("reviews", .mapping [("auto_review", .mapping [("enabled", .bool true)])])]
  | .strict =>
    [("version", .number (.integer 2)),
      ("reviews", .mapping
        [("auto_review", .mapping
          [("enabled", .bool true), ("approve_threshold", .number (.integer 90))]),
          ("rules", .list [.mapping
            [("name", .string "Require tests"), ("pattern", .string "**/*.test.\x7bjs,ts\x7d"),
              ("condition", .string "required")]])])]

theorem ofName?_name (p : Preset) : ofName? p.name = some p := by cases p <;> rfl

end Preset
end FlatConfig
