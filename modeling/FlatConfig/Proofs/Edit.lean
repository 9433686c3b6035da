import FlatConfig.Proofs.Nested

set_option autoImplicit false

namespace FlatConfig

namespace Value

def onMapping (f : Fragment → Fragment) : Value → Value
  | .mapping entries => .mapping (f entries)
  | v => v

def onList (f : List Value → List Value) : Value → Value
  | .list items => .list (f items)
  | v => v

end Value

namespace Fragment

def adjust (fragment : Fragment) (key : String) (f : Value → Value) : Fragment :=
  match fragment.get? key with
  | some v => fragment.insert key (f v)
  | none => fragment

def put (fragment : Fragment) (key : String) : Option Value → Fragment
  | some v => fragment.insert key v
  | none => fragment.erase key

def edit (f : Fragment → Fragment) : List String → Fragment → Fragment
  | [], fragment => f fragment
  | key :: rest, fragment => fragment.adjust key (Value.onMapping (edit f rest))

/-- The mapping at the end of a path of keys has a property, if there is one. -/
def At (p : Fragment → Prop) : List String → Fragment → Prop
  | [], fragment => p fragment
  | key :: rest, fragment => ∀ inner, fragment.get? key = some (.mapping inner) → At p rest inner

end Fragment

namespace Value

def field? (name : String) (position : Nat) : Value → Option Value
  | .mapping entries => Fragment.get? entries name
  | .list items => items[position]?
  | _ => none

/-- Sets a field of a record or leaves it out. In the list form it becomes the last field. -/
def putField (name : String) (position : Nat) (new : Option Value) : Value → Value
  | .mapping entries => .mapping (Fragment.put entries name new)
  | .list items =>
    .list (if position ≤ items.length then items.take position ++ new.toList else items)
  | v => v

def adjustField (name : String) (position : Nat) (f : Value → Value) : Value → Value
  | .mapping entries => .mapping (Fragment.adjust entries name f)
  | .list items => .list (items.modify position f)
  | v => v

end Value

namespace Fragment

theorem adjust_of_get? {fragment : Fragment} {key : String} {v : Value}
    (h : fragment.get? key = some v) (f : Value → Value) :
    fragment.adjust key f = fragment.insert key (f v) := by
  rw [adjust, h]

theorem adjust_of_not_mem {fragment : Fragment} {key : String} (h : key ∉ keys fragment)
    (f : Value → Value) : fragment.adjust key f = fragment := by
  rw [adjust, get?_eq_none_iff.mpr h]

theorem get?_adjust (fragment : Fragment) (key : String) (f : Value → Value) (other : String) :
    get? (fragment.adjust key f) other =
      if key = other then (get? fragment other).map f else get? fragment other := by
  cases h : fragment.get? key with
  | none =>
    rw [adjust_of_not_mem (get?_eq_none_iff.mp h)]
    by_cases ho : key = other
    · rw [if_pos ho, ← ho, h, Option.map_none]
    · rw [if_neg ho]
  | some v =>
    rw [adjust_of_get? h, get?_insert]
    by_cases ho : key = other
    · rw [if_pos ho, if_pos ho, ← ho, h, Option.map_some]
    · rw [if_neg ho, if_neg ho]

theorem insert_adjust (fragment : Fragment) (key : String) (f : Value → Value) (v : Value) :
    (fragment.adjust key f).insert key v = fragment.insert key v := by
  cases h : fragment.get? key with
  | none => rw [adjust_of_not_mem (get?_eq_none_iff.mp h)]
  | some w => rw [adjust_of_get? h, insert_insert]

theorem insert_comm_of_mem {fragment : Fragment} {key other : String} (h : key ∈ keys fragment)
    (hne : key ≠ other) (v w : Value) :
    (fragment.insert key v).insert other w = (fragment.insert other w).insert key v := by
  induction fragment with
  | nil => cases h
  | cons e rest ih =>
    obtain ⟨k, u⟩ := e
    by_cases hk : k = key
    · simp [insert_cons, hk, hne]
    · have hrest := List.mem_of_ne_of_mem (Ne.symm hk) h
      by_cases ho : k = other
      · simp [insert_cons, ho, Ne.symm hne]
      · simp [insert_cons, hk, ho, ih hrest]

theorem insert_adjust_of_ne (fragment : Fragment) {key other : String} (hne : key ≠ other)
    (f : Value → Value) (v : Value) :
    (fragment.adjust key f).insert other v = (fragment.insert other v).adjust key f := by
  have hget : (fragment.insert other v).get? key = fragment.get? key := by
    rw [get?_insert, if_neg (Ne.symm hne)]
  cases h : fragment.get? key with
  | none => rw [adjust, adjust, hget, h]
  | some w =>
    rw [adjust_of_get? h, adjust_of_get? (hget.trans h)]
    exact insert_comm_of_mem (get?_isSome_iff.mp (by simp [h])) hne (f w) v

theorem get?_put (fragment : Fragment) (key : String) (new : Option Value) (other : String) :
    get? (fragment.put key new) other = if key = other then new else get? fragment other := by
  cases new with
  | none => exact get?_erase fragment key other
  | some v => exact get?_insert fragment key v other

theorem nodup_keys_put {fragment : Fragment} (h : (keys fragment).Nodup) (key : String)
    (new : Option Value) : (keys (fragment.put key new)).Nodup := by
  cases new with
  | none => exact nodup_keys_erase h key
  | some v => exact nodup_keys_insert h key v

theorem erase_insert_of_ne (fragment : Fragment) {key other : String} (hne : key ≠ other)
    (v : Value) : (fragment.insert key v).erase other = (fragment.erase other).insert key v := by
  induction fragment with
  | nil => simp [insert, update, erase, hne]
  | cons e rest ih =>
    obtain ⟨k, w⟩ := e
    by_cases hk : k = key
    · simp [insert_cons, erase_cons, hk, hne]
    · by_cases ho : k = other <;> simp [insert_cons, erase_cons, hk, ho, Ne.symm hne, ih]

theorem erase_put_of_ne (fragment : Fragment) {key other : String} (hne : key ≠ other)
    (new : Option Value) :
    (fragment.put key new).erase other = (fragment.erase other).put key new := by
  cases new with
  | none => simp [put, erase, List.filter_filter, Bool.and_comm]
  | some v => exact erase_insert_of_ne fragment hne v

theorem erase_adjust_of_ne (fragment : Fragment) {key other : String} (hne : key ≠ other)
    (f : Value → Value) :
    (fragment.adjust key f).erase other = (fragment.erase other).adjust key f := by
  have hget : (fragment.erase other).get? key = fragment.get? key := by
    rw [get?_erase, if_neg (Ne.symm hne)]
  cases h : fragment.get? key with
  | none => rw [adjust, adjust, hget, h]
  | some w =>
    rw [adjust_of_get? h, adjust_of_get? (hget.trans h)]
    exact erase_insert_of_ne fragment hne (f w)

end Fragment

theorem Value.field?_adjustField (name : String) (position : Nat) (f : Value → Value) (v : Value) :
    (v.adjustField name position f).field? name position = (v.field? name position).map f := by
  cases v with
  | mapping entries => exact (Fragment.get?_adjust entries name f name).trans (if_pos rfl)
  | list items => simp [adjustField, field?]
  | _ => rfl

end FlatConfig
