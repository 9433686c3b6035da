import FlatConfig.Decimal.Binary64

/-!
Configuration values: the data a source holds, a fragment is made of and an output shows.

A mapping is the list of its entries in declaration order. Every reader and every operation of the
library keeps the keys of a mapping distinct; `Value.Distinct` says so of a whole value.
-/

set_option autoImplicit false

namespace FlatConfig

/-- Readers keep integers within 64 bits, signed or not; any other number is a float. -/
inductive Number where
  | integer (n : Int)
  | float (x : Binary64)
  deriving DecidableEq, Repr

/-- Numerical equality within a kind: `1` and `1.0` differ, the two zeros of a float do not. -/
def Number.same : Number → Number → Bool
  | .integer m, .integer n => m == n
  | .float x, .float y => x.same y
  | _, _ => false

inductive Value where
  | null
  | bool (b : Bool)
  | number (n : Number)
  | string (s : String)
  | list (items : List Value)
  | mapping (entries : List (String × Value))
  deriving Repr

abbrev Fragment := List (String × Value)

namespace Fragment

def keys (fragment : Fragment) : List String := fragment.map Prod.fst

def get? (fragment : Fragment) (key : String) : Option Value := fragment.lookup key

/-- The value at a key is replaced in place; a new key goes to the end. -/
def update (fragment : Fragment) (key : String) (f : Option Value → Value) : Fragment :=
  match fragment with
  | [] => [(key, f none)]
  | (k, v) :: rest => if k = key then (k, f (some v)) :: rest else (k, v) :: update rest key f

def insert (fragment : Fragment) (key : String) (value : Value) : Fragment :=
  fragment.update key fun _ => value

def erase (fragment : Fragment) (key : String) : Fragment :=
  fragment.filter fun entry => entry.1 != key

/-- Of entries with one key the last value stays, at the place of the first. -/
def ofEntries (entries : List (String × Value)) : Fragment :=
  entries.foldl (fun fragment (key, value) => fragment.insert key value) []

end Fragment

namespace Value

def isNull : Value → Bool
  | .null => true
  | _ => false

def get? : Value → String → Option Value
  | .mapping entries, key => Fragment.get? entries key
  | _, _ => none

/-- A field is set when it is present and not null. -/
def set? : Option Value → Option Value
  | some .null => none
  | value => value

mutual
def Distinct : Value → Prop
  | .list items => DistinctItems items
  | .mapping entries => (Fragment.keys entries).Nodup ∧ DistinctEntries entries
  | _ => True

def DistinctItems : List Value → Prop
  | [] => True
  | item :: rest => item.Distinct ∧ DistinctItems rest

def DistinctEntries : List (String × Value) → Prop
  | [] => True
  | (_, value) :: rest => value.Distinct ∧ DistinctEntries rest
end

mutual
def identical : Value → Value → Bool
  | .null, .null => true
  | .bool a, .bool b => a == b
  | .number a, .number b => a == b
  | .string a, .string b => a == b
  | .list a, .list b => identicalItems a b
  | .mapping a, .mapping b => identicalEntries a b
  | _, _ => false
termination_by structural a => a

def identicalItems : List Value → List Value → Bool
  | [], [] => true
  | a :: as, b :: bs => a.identical b && identicalItems as bs
  | _, _ => false
termination_by structural a => a

def identicalEntries : List (String × Value) → List (String × Value) → Bool
  | [], [] => true
  | (k, a) :: as, (l, b) :: bs => k == l && a.identical b && identicalEntries as bs
  | _, _ => false
termination_by structural a => a
end

mutual
theorem identical_iff (a b : Value) : a.identical b = true ↔ a = b := by
  cases a with
  | list xs => cases b <;> simp [identical, identicalItems_iff]
  | mapping xs => cases b <;> simp [identical, identicalEntries_iff]
  | _ => cases b <;> simp [identical]

theorem identicalItems_iff (as bs : List Value) : identicalItems as bs = true ↔ as = bs := by
  cases as with
  | nil => cases bs <;> simp [identicalItems]
  | cons a as => cases bs <;> simp [identicalItems, identical_iff a, identicalItems_iff as]

theorem identicalEntries_iff (as bs : List (String × Value)) :
    identicalEntries as bs = true ↔ as = bs := by
  cases as with
  | nil => cases bs <;> simp [identicalEntries]
  | cons e as =>
    obtain ⟨k, a⟩ := e
    cases bs with
    | nil => simp [identicalEntries]
    | cons f bs => simp [identicalEntries, identical_iff a, identicalEntries_iff as, Prod.ext_iff]
end

instance : DecidableEq Value := fun a b => decidable_of_iff _ (identical_iff a b)

mutual
/-- Equal as data: the order of keys does not matter, nor does the sign of a zero float. -/
def same : Value → Value → Bool
  | .null, .null => true
  | .bool a, .bool b => a == b
  | .number a, .number b => a.same b
  | .string a, .string b => a == b
  | .list a, .list b => sameItems a b
  | .mapping a, .mapping b => a.length == b.length && sameEntries a b
  | _, _ => false
termination_by structural a => a

def sameItems : List Value → List Value → Bool
  | [], [] => true
  | a :: as, b :: bs => a.same b && sameItems as bs
  | _, _ => false
termination_by structural a => a

def sameEntries : List (String × Value) → List (String × Value) → Bool
  | [], _ => true
  | (key, a) :: as, bs =>
    (match Fragment.get? bs key with
      | some b => a.same b
      | none => false) && sameEntries as bs
termination_by structural a => a
end

end Value
end FlatConfig
