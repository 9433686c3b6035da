import FlatConfig.Decimal.Layout
import FlatConfig.Value

set_option autoImplicit false

namespace FlatConfig.Json

def floatFormat : FloatFormat := ⟨FloatFormat.compactRange, "+"⟩

def hexDigit (n : Nat) : Char := (Nat.toDigits 16 n).headD '0'

def escape (c : Char) : List Char :=
  if c = '"' then ['\\', '"']
  else if c = '\\' then ['\\', '\\']
  else if c = '\x08' then ['\\', 'b']
  else if c = '\t' then ['\\', 't']
  else if c = '\n' then ['\\', 'n']
  else if c = '\x0c' then ['\\', 'f']
  else if c = '\r' then ['\\', 'r']
  else if c.toNat < 0x20 then
    ['\\', 'u', '0', '0', hexDigit (c.toNat / 16), hexDigit (c.toNat % 16)]
  else [c]

def quote (s : String) : List Char := '"' :: s.toList.flatMap escape ++ ['"']

def number : Number → List Char
  | .integer n => (toString n).toList
  | .float x => floatFormat.write x

mutual
def compact : Value → List Char
  | .null => "null".toList
  | .bool true => "true".toList
  | .bool false => "false".toList
  | .number n => number n
  | .string s => quote s
  | .list items => '[' :: compactItems items ++ [']']
  | .mapping entries => '{' :: compactEntries entries ++ ['}']

def compactItems : List Value → List Char
  | [] => []
  | [item] => compact item
  | item :: rest => compact item ++ ',' :: compactItems rest

def compactEntries : List (String × Value) → List Char
  | [] => []
  | [(key, value)] => quote key ++ ':' :: compact value
  | (key, value) :: rest => quote key ++ ':' :: compact value ++ ',' :: compactEntries rest
end

end FlatConfig.Json

namespace FlatConfig.Value

def toJson (v : Value) : String := String.ofList (Json.compact v)

end FlatConfig.Value
