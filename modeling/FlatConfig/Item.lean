import FlatConfig.Error

/-!
Configuration trees: fragments, nested lists and functions of the environment.

Flattening visits the leaves from left to right. A function is invoked once, and what it returns is
flattened in its place.
-/

set_option autoImplicit false

namespace FlatConfig

abbrev Environment := List (String × String)

inductive Item where
  | fragment (fragment : List (String × Value))
  | list (items : List Item)
  /-- The name identifies the function in the record of invocations. -/
  | function (name : String) (body : Environment → Logged (Except Failure Item))

namespace Item

mutual
/-- Mappings become fragments and lists become lists; the first other value is an error. -/
def ofValue : Value → Except Error Item
  | .mapping entries => .ok (.fragment entries)
  | .list items => do return .list (← ofValues items)
  | v => .error (.entryKind (.of v))

def ofValues : List Value → Except Error (List Item)
  | [] => .ok []
  | v :: rest => do return (← ofValue v) :: (← ofValues rest)
end

def define (items : List Item) : Item := .list items

def nest : Nat → Item → Item
  | 0, item => item
  | depth + 1, item => .list [nest depth item]

mutual
/-- The fragments of an item that `position` fragments stand before. -/
def gather (env : Environment) (position : Nat) : Item → Attempt (List Fragment)
  | .fragment f => pure [f]
  | .list items => gatherItems env position items
  | .function name body => do
    Attempt.tell (.invokingFunction name position)
    gatherOutcome env position (body env)
termination_by structural item => item

def gatherItems (env : Environment) (position : Nat) : List Item → Attempt (List Fragment)
  | [] => pure []
  | item :: rest => do
    let first ← item.gather env position
    let more ← gatherItems env (position + first.length) rest
    return first ++ more
termination_by structural items => items

def gatherOutcome (env : Environment) (position : Nat) :
    Logged (Except Failure Item) → Attempt (List Fragment)
  | ⟨log, result⟩ => do
    log.forM Attempt.tell
    gatherResult env position result
termination_by structural outcome => outcome

def gatherResult (env : Environment) (position : Nat) :
    Except Failure Item → Attempt (List Fragment)
  | .error failure => Attempt.fail (.ofFailure failure)
  | .ok item => item.gather env position
termination_by structural result => result
end

def flatten (item : Item) (env : Environment) : Attempt (List Fragment) := do
  let fragments ← item.gather env 0
  Attempt.tell (.flattened fragments.length)
  return fragments

end Item
end FlatConfig
