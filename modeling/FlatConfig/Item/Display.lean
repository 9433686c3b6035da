import FlatConfig.Item

set_option autoImplicit false

namespace FlatConfig

def braces (parts : List String) : String := "\x7b" ++ ", ".intercalate parts ++ "\x7d"

mutual
def Value.outline : Value → String
  | .null => "Null"
  | .bool b => "Bool(" ++ toString b ++ ")"
  | .number n => "Number(" ++ String.ofList (Json.number n) ++ ")"
  | .string s => "String(" ++ Text.quoted s ++ ")"
  | .list items => "Array [" ++ ", ".intercalate (outlineItems items) ++ "]"
  | .mapping entries => "Object " ++ braces (outlineEntries entries)

def outlineItems : List Value → List String
  | [] => []
  | item :: rest => item.outline :: outlineItems rest

def outlineEntries : List (String × Value) → List String
  | [] => []
  | (key, v) :: rest => (Text.quoted key ++ ": " ++ v.outline) :: outlineEntries rest
end

namespace Item

mutual
def toJson : Item → String
  | .fragment f => (Value.mapping f).toJson
  | .list items => "[" ++ ",".intercalate (toJsons items) ++ "]"
  | .function _ _ => "\"function\""

def toJsons : List Item → List String
  | [] => []
  | item :: rest => item.toJson :: toJsons rest
end

mutual
def outline : Item → String
  | .fragment f => "Fragment(" ++ braces (outlineEntries f) ++ ")"
  | .list items => "List([" ++ ", ".intercalate (outlines items) ++ "])"
  | .function _ _ => "Function(..)"

def outlines : List Item → List String
  | [] => []
  | item :: rest => item.outline :: outlines rest
end

end Item
end FlatConfig
