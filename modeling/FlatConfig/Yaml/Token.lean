set_option autoImplicit false

namespace FlatConfig.Yaml

abbrev Octets := List UInt8

def octets (text : String) : Octets := text.toUTF8.toList

inductive Token where
  | versionDirective (major minor : Nat)
  | tagDirective (handle : String) (expansion : Octets)
  | documentStart
  | documentEnd
  | blockSequenceStart
  | blockMappingStart
  | blockEnd
  | flowSequenceStart
  | flowSequenceEnd
  | flowMappingStart
  | flowMappingEnd
  | blockEntry
  | flowEntry
  | key
  | value
  | alias (name : String)
  | anchor (name : String)
  | tag (handle : String) (suffix : Octets)
  | scalar (text : String) (plain : Bool)
  deriving DecidableEq, Repr

end FlatConfig.Yaml
