import FlatConfig.Proofs.Leaves
import FlatConfig.Proofs.Nested

set_option autoImplicit false

namespace FlatConfig

namespace Value

inductive IsNesting : Value → Prop where
  | mapping (entries : Fragment) : IsNesting (.mapping entries)
  | list {items : List Value} (h : ∀ v ∈ items, IsNesting v) : IsNesting (.list items)

mutual
/-- The values other than lists that are reached through lists only, in the order of the
document. -/
def leaves : Value → List Value
  | .list items => leavesOf items
  | v => [v]

def leavesOf : List Value → List Value
  | [] => []
  | v :: rest => v.leaves ++ leavesOf rest
end

theorem leavesOf_eq_flatMap (items : List Value) : leavesOf items = items.flatMap leaves := by
  induction items with
  | nil => rfl
  | cons v rest ih => rw [leavesOf, ih, List.flatMap_cons]

theorem isNesting_iff {v : Value} :
    v.IsNesting ↔ ∀ w ∈ v.leaves, ∃ entries, w = .mapping entries := by
  induction v using induction_nested with
  | list items ih =>
    rw [leaves, leavesOf_eq_flatMap]
    simp only [List.mem_flatMap]
    constructor
    · rintro hitems w ⟨v, hv, hw⟩
      cases hitems with
      | list h => exact (ih v hv).mp (h v hv) w hw
    · intro h
      exact .list fun v hv => (ih v hv).mpr fun w hw => h w ⟨v, hv, hw⟩
  | mapping entries ih => exact iff_of_true (.mapping entries) (by simp [leaves])
  | _ => exact iff_of_false (fun h => nomatch h) (by simp [leaves])

end Value

namespace Item

def checkEntry : Value → Except Error Unit
  | .mapping _ => .ok ()
  | v => .error (.entryKind (.of v))

theorem checkEntry_eq_ok_iff {v : Value} :
    checkEntry v = .ok () ↔ ∃ entries, v = .mapping entries := by
  cases v <;> simp [checkEntry]

theorem checkEntry_eq_error_iff {v : Value} {e : Error} :
    checkEntry v = .error e ↔ (∀ entries, v ≠ .mapping entries) ∧ e = .entryKind (.of v) := by
  cases v <;> simp [checkEntry, eq_comm]

mutual
/-- Making an item fails as checking the leaves one after the other does. -/
theorem map_ofValue (v : Value) :
    (fun _ => ()) <$> ofValue v = forM v.leaves checkEntry := by
  cases v with
  | list items =>
    rw [ofValue, Value.leaves, ← map_ofValues items]
    cases ofValues items <;> rfl
  | _ => rfl

theorem map_ofValues (items : List Value) :
    (fun _ => ()) <$> ofValues items = forM (Value.leavesOf items) checkEntry := by
  cases items with
  | nil => rfl
  | cons v rest =>
    rw [ofValues, Value.leavesOf, List.forM_append, ← map_ofValue v, ← map_ofValues rest]
    cases ofValue v <;> cases ofValues rest <;> rfl
end

theorem exists_ofValue_iff {v : Value} : (∃ item, ofValue v = .ok item) ↔ v.IsNesting := by
  rw [Value.isNesting_iff]
  simp only [← checkEntry_eq_ok_iff]
  rw [← forM_eq_ok, ← map_ofValue, map_eq_ok]
  simp

theorem ofValue_eq_error_iff {v : Value} {e : Error} :
    ofValue v = .error e ↔
      ∃ before w after, v.leaves = before ++ w :: after ∧
        (∀ u ∈ before, ∃ entries, u = .mapping entries) ∧
        (∀ entries, w ≠ .mapping entries) ∧ e = .entryKind (.of w) := by
  have herror : ofValue v = .error e ↔ (fun _ => ()) <$> ofValue v = .error e := by
    cases ofValue v <;> simp
  rw [herror, map_ofValue, forM_eq_error]
  simp only [checkEntry_eq_ok_iff, checkEntry_eq_error_iff]

mutual
/-- The document that an item without functions stands for. -/
def toValue? : Item → Option Value
  | .fragment f => some (.mapping f)
  | .list items => (toValues? items).map .list
  | .function _ _ => none
termination_by structural item => item

def toValues? : List Item → Option (List Value)
  | [] => some []
  | item :: rest => do return (← item.toValue?) :: (← toValues? rest)
termination_by structural items => items
end

mutual
theorem toValue?_of_ofValue {v : Value} {item : Item} (h : ofValue v = .ok item) :
    item.toValue? = some v := by
  cases v with
  | mapping entries =>
    obtain rfl := Except.ok.inj h
    rfl
  | list items =>
    obtain ⟨made, hmade, h⟩ := bind_eq_ok.mp h
    obtain rfl := Except.ok.inj h
    rw [toValue?, toValues?_of_ofValues hmade]
    rfl
  | _ => cases h

theorem toValues?_of_ofValues {items : List Value} {made : List Item}
    (h : ofValues items = .ok made) : toValues? made = some items := by
  cases items with
  | nil =>
    obtain rfl := Except.ok.inj h
    rfl
  | cons v rest =>
    obtain ⟨first, hfirst, h⟩ := bind_eq_ok.mp h
    obtain ⟨more, hmore, h⟩ := bind_eq_ok.mp h
    obtain rfl := Except.ok.inj h
    rw [toValues?, toValue?_of_ofValue hfirst, toValues?_of_ofValues hmore]
    rfl
end

mutual
/-- An item and the document it stands for have the same leaves. -/
theorem leaves_of_toValue? {item : Item} {v : Value} (h : item.toValue? = some v) :
    ∃ fragments : List Fragment,
      item.leaves = fragments.map .fragment ∧ v.leaves = fragments.map .mapping := by
  cases item with
  | fragment f =>
    obtain rfl := Option.some.inj h
    exact ⟨[f], rfl, rfl⟩
  | list items =>
    obtain ⟨values, hvalues, rfl⟩ := Option.map_eq_some_iff.mp h
    exact leavesOf_of_toValues? hvalues
  | function name body => cases h

theorem leavesOf_of_toValues? {items : List Item} {values : List Value}
    (h : toValues? items = some values) :
    ∃ fragments : List Fragment,
      leavesOf items = fragments.map .fragment ∧
        Value.leavesOf values = fragments.map .mapping := by
  cases items with
  | nil =>
    obtain rfl := Option.some.inj h
    exact ⟨[], rfl, rfl⟩
  | cons item rest =>
    obtain ⟨v, hv, h⟩ := Option.bind_eq_some_iff.mp h
    obtain ⟨more, hmore, h⟩ := Option.bind_eq_some_iff.mp h
    obtain rfl := Option.some.inj h
    obtain ⟨front, hfront, hvfront⟩ := leaves_of_toValue? hv
    obtain ⟨back, hback, hvback⟩ := leavesOf_of_toValues? hmore
    refine ⟨front ++ back, ?_, ?_⟩
    · rw [leavesOf, hfront, hback, List.map_append]
    · rw [Value.leavesOf, hvfront, hvback, List.map_append]
end

theorem gatherItems_fragments (env : Environment) (position : Nat) (fragments : List Fragment) :
    gatherItems env position (fragments.map .fragment) = pure fragments := by
  induction fragments generalizing position with
  | nil => rfl
  | cons f rest ih => simp [gatherItems, gather, ih]

theorem flatten_of_leaves {item : Item} {fragments : List Fragment}
    (h : item.leaves = fragments.map .fragment) (env : Environment) :
    item.flatten env = do
      Attempt.tell (.flattened fragments.length)
      return fragments := by
  rw [flatten, gather_eq_leaves, h, gatherItems_fragments, pure_bind]

/-- Exactly the mappings in nested lists make an item. The item stands for the same document, and
flattening it comes to the mappings of the document, with no function invoked. Otherwise the first
leaf that is no mapping is the error. -/
theorem ofValue_document (v : Value) :
    ((∃ item, ofValue v = .ok item) ↔ v.IsNesting) ∧
      (∀ item, ofValue v = .ok item → item.toValue? = some v ∧
        ∃ fragments : List Fragment, v.leaves = fragments.map .mapping ∧
          ∀ env, (item.flatten env).value = .ok fragments ∧
            (item.flatten env).log = [.flattened fragments.length] ∧
            (item.flatten env).run.calls = []) ∧
      ∀ e, ofValue v = .error e ↔
        ∃ before w after, v.leaves = before ++ w :: after ∧
          (∀ u ∈ before, ∃ entries, u = .mapping entries) ∧
          (∀ entries, w ≠ .mapping entries) ∧ e = .entryKind (.of w) ∧
          e.isInvalidConfig = true ∧
          e.message? = some ("Configuration entries must be mappings or lists, found " ++
            (ValueKind.of w).text) := by
  refine ⟨exists_ofValue_iff, fun item h => ?_, fun e => ?_⟩
  · have hvalue := toValue?_of_ofValue h
    obtain ⟨fragments, hitem, hleaves⟩ := leaves_of_toValue? hvalue
    refine ⟨hvalue, fragments, hleaves, fun env => ?_⟩
    rw [flatten_of_leaves hitem]
    exact ⟨rfl, rfl, rfl⟩
  · rw [ofValue_eq_error_iff]
    constructor
    · rintro ⟨before, w, after, hleaves, hbefore, hw, rfl⟩
      exact ⟨before, w, after, hleaves, hbefore, hw, rfl, rfl, rfl⟩
    · rintro ⟨before, w, after, hleaves, hbefore, hw, he, -, -⟩
      exact ⟨before, w, after, hleaves, hbefore, hw, he⟩

example :
    ofValue (.list [.list [.mapping [("a", .null)]], .list [.list [], .number (.integer 1)],
      .null]) = .error (.entryKind .number) := rfl

end Item
end FlatConfig
