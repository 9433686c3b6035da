import FlatConfig.Value

set_option autoImplicit false

namespace FlatConfig

mutual
/-- Mappings are merged entry by entry, null gives way, and any other value stays. -/
def Value.merge : Value → Value → Value
  | .mapping kept, .mapping incoming => .mapping (Fragment.merge kept incoming)
  | .null, incoming => incoming
  | kept, _ => kept
termination_by structural _ incoming => incoming

/-- The keys that are already there keep their places; new ones follow in their own order. -/
def Fragment.merge : List (String × Value) → List (String × Value) → List (String × Value)
  | kept, [] => kept
  | kept, (key, incoming) :: rest =>
    Fragment.merge
      (Fragment.update kept key fun
        | some value => value.merge incoming
        | none => incoming)
      rest
termination_by structural _ incoming => incoming
end

namespace Fragment

def mergeAll (fragments : List Fragment) : Fragment := fragments.foldl merge []

def mergeSteps (kept : Fragment) : List Fragment → List Fragment
  | [] => []
  | fragment :: rest =>
    let next := merge kept fragment
    next :: mergeSteps next rest

end Fragment
end FlatConfig
