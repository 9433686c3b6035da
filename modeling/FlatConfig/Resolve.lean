import FlatConfig.Expand
import FlatConfig.Item
import FlatConfig.Merge

set_option autoImplicit false

namespace FlatConfig

/-- A `version` that is present has to be a number; null counts as present. -/
def Fragment.validate (fragment : Fragment) : Except Error Unit :=
  match fragment.get? "version" with
  | none | some (.number _) => .ok ()
  | some _ => .error .version

/-- All fragments are validated before any is merged. -/
def Item.resolve (item : Item) (env : Environment) : Attempt Fragment := do
  let fragments ← item.flatten env
  Attempt.ofExcept (fragments.forM Fragment.validate)
  let merged := Fragment.mergeAll fragments
  Attempt.tell (.merged merged.length)
  merged.expand

end FlatConfig
