import FlatConfig.Proofs.Merge
import FlatConfig.Proofs.Nested

/-!
Merging a list of mappings column by column, the column of a key being the values that the mappings
hold there.

The main statement is `mergeAll_eq_columnwise`: merging from left to right, one mapping after the
other, comes to the same, with the same keys in the same order at every depth.
-/

set_option autoImplicit false

namespace FlatConfig

namespace Value

def firstSet? (values : List Value) : Option Value := values.find? (!·.isNull)

def mappings (values : List Value) : List Fragment :=
  values.filterMap fun
    | .mapping entries => some entries
    | _ => none

theorem mem_of_firstSet? {values : List Value} {v : Value} (h : firstSet? values = some v) :
    v ∈ values := List.mem_of_find?_eq_some h

theorem mem_mappings {values : List Value} {m : Fragment} :
    m ∈ mappings values ↔ .mapping m ∈ values := by
  simp only [mappings, List.mem_filterMap]
  constructor
  · rintro ⟨v, hv, h⟩
    cases v <;> simp_all
  · intro h
    exact ⟨_, h, rfl⟩

theorem sizeOf_mappings_le (values : List Value) : sizeOf (mappings values) ≤ sizeOf values := by
  induction values with
  | nil => simp [mappings]
  | cons v vs ih =>
    cases v <;> simp [mappings] at * <;> omega

theorem sizeOf_mappings_lt {values : List Value} {m : Fragment} (h : .mapping m ∈ values) :
    sizeOf (mappings values) < sizeOf values := by
  induction values with
  | nil => simp at h
  | cons v vs ih =>
    have hle := sizeOf_mappings_le vs
    rcases List.mem_cons.mp h with rfl | hm
    · simp [mappings] at *
      omega
    · have hlt := ih hm
      cases v <;> simp [mappings] at * <;> omega

end Value

namespace Fragment

def column (fragments : List Fragment) (key : String) : List Value :=
  fragments.filterMap (·.get? key)

theorem sizeOf_column_le (fragments : List Fragment) (key : String) :
    sizeOf (column fragments key) ≤ sizeOf fragments := by
  induction fragments with
  | nil => simp [column]
  | cons f fs ih =>
    cases h : get? f key with
    | none => simp [column, h] at *; omega
    | some v =>
      have hv := sizeOf_get?_lt h
      simp [column, h] at *
      omega

/-- The merge of all fragments, column by column. The first value that is set decides: a mapping is
merged with all the other mappings of its column, whatever stands between them. -/
def columnwise (fragments : List Fragment) : Fragment :=
  (fragments.flatMap keys).eraseDups.map fun key =>
    (key,
      match _hset : Value.firstSet? (column fragments key) with
      | none => .null
      | some (.mapping _) => .mapping (columnwise (Value.mappings (column fragments key)))
      | some v => v)
termination_by sizeOf fragments
decreasing_by
  have hlt := Value.sizeOf_mappings_lt (Value.mem_of_firstSet? _hset)
  have hle := sizeOf_column_le fragments key
  omega

theorem distinct_of_mem_column {fragments : List Fragment} {key : String} {v : Value}
    (hd : ∀ f ∈ fragments, (Value.mapping f).Distinct) (h : v ∈ column fragments key) :
    v.Distinct := by
  obtain ⟨f, hf, hv⟩ := List.mem_filterMap.mp h
  exact distinct_of_get? (hd f hf) hv

theorem flatMap_valuesAt {fragments : List Fragment}
    (hd : ∀ f ∈ fragments, (Value.mapping f).Distinct) (key : String) :
    fragments.flatMap (valuesAt · key) = column fragments key := by
  induction fragments with
  | nil => rfl
  | cons f fs ih =>
    have hf : (keys f).Nodup := (hd f (by simp)).1
    have hfs := ih fun g hg => hd g (by simp [hg])
    rw [List.flatMap_cons, hfs, valuesAt_of_nodup hf]
    cases h : get? f key <;> simp [column, h]

theorem column_ne_nil {fragments : List Fragment} {key : String}
    (h : key ∈ fragments.flatMap keys) : column fragments key ≠ [] := by
  obtain ⟨f, hf, hk⟩ := List.mem_flatMap.mp h
  obtain ⟨v, hv⟩ := Option.isSome_iff_exists.mp (get?_isSome_iff.mpr hk)
  exact List.ne_nil_of_mem (List.mem_filterMap.mpr ⟨f, hf, hv⟩)

theorem column_eq_nil {fragments : List Fragment} {key : String}
    (h : key ∉ fragments.flatMap keys) : column fragments key = [] := by
  apply List.filterMap_eq_nil_iff.mpr
  intro f hf
  exact get?_eq_none_iff.mpr fun hk => h (List.mem_flatMap.mpr ⟨f, hf, hk⟩)

end Fragment

namespace Value

theorem foldl_merge_mapping (kept : Fragment) (values : List Value) :
    values.foldl merge (.mapping kept) =
      .mapping ((mappings values).foldl Fragment.merge kept) := by
  induction values generalizing kept with
  | nil => rfl
  | cons v vs ih => cases v <;> exact ih _

theorem mergeAll_eq {values : List Value} (hne : values ≠ [])
    (hd : ∀ m, .mapping m ∈ values → (Fragment.keys m).Nodup) :
    mergeAll values = some (match firstSet? values with
      | none => .null
      | some (.mapping _) => .mapping (Fragment.mergeAll (mappings values))
      | some v => v) := by
  induction values with
  | nil => exact absurd rfl hne
  | cons v vs ih =>
    cases v with
    | null =>
      cases vs with
      | nil => rfl
      | cons w ws =>
        have hskip : mergeAll (.null :: w :: ws) = mergeAll (w :: ws) := by simp [mergeAll]
        rw [hskip]
        exact ih (by simp) fun m hm => hd m (by simp [hm])
    | mapping m =>
      have hm : Fragment.merge [] m = m := Fragment.nil_merge (hd m (by simp))
      simp only [mergeAll, foldl_merge_mapping]
      simp [firstSet?, isNull, mappings, Fragment.mergeAll, hm]
    | _ =>
      rw [mergeAll, foldl_merge_of_not_mapping (by simp) (by simp)]
      rfl

end Value

namespace Fragment

@[simp] theorem keys_map_key (names : List String) (f : String → Value) :
    keys (names.map fun key => (key, f key)) = names := by
  simp [keys, Function.comp_def]

theorem get?_map_key (names : List String) (f : String → Value) (key : String) :
    get? (names.map fun key => (key, f key)) key = if key ∈ names then some (f key) else none := by
  induction names with
  | nil => simp
  | cons name rest ih =>
    by_cases h : name = key
    · simp [h]
    · simp [get?_cons, h, ih, Ne.symm h]

theorem mergeAll_eq_columnwise (fragments : List Fragment)
    (hd : ∀ f ∈ fragments, (Value.mapping f).Distinct) :
    mergeAll fragments = columnwise fragments := by
  rw [columnwise]
  apply ext_keys
  · rw [keys_map_key, keys_mergeAll]
  · exact nodup_keys_mergeAll fragments
  intro key
  rw [get?_mergeAll, flatMap_valuesAt hd, get?_map_key]
  by_cases hk : key ∈ fragments.flatMap keys
  · have hm : ∀ m, .mapping m ∈ column fragments key → (keys m).Nodup :=
      fun m h => (distinct_of_mem_column hd h).1
    rw [if_pos (List.mem_eraseDups.mpr hk), Value.mergeAll_eq (column_ne_nil hk) hm]
    congr 1
    cases hset : Value.firstSet? (column fragments key) with
    | none => simp
    | some v =>
      cases v with
      | mapping m =>
        -- one level further down, the mappings of this column are merged in the same way
        have hcolumn : ∀ f ∈ Value.mappings (column fragments key), (Value.mapping f).Distinct :=
          fun f hf => distinct_of_mem_column hd (Value.mem_mappings.mp hf)
        simp [mergeAll_eq_columnwise _ hcolumn]
      | _ => simp
  · rw [if_neg (by simpa using hk), column_eq_nil hk]
    rfl
termination_by sizeOf fragments
decreasing_by
  have hlt := Value.sizeOf_mappings_lt (Value.mem_of_firstSet? hset)
  have hle := sizeOf_column_le fragments key
  omega

def layers : List Fragment :=
  [[("tools", .mapping [("a", .bool true)]), ("tone", .null)],
   [("tools", .string "none"), ("tone", .null)],
   [("draft", .null), ("early", .list []), ("tools", .mapping [("b", .null), ("a", .null)])],
   [("tone", .string "kind"), ("tools", .mapping [("b", .bool false)])]]

theorem layers_columnwise :
    (∀ f ∈ layers, (Value.mapping f).Distinct) ∧ columnwise layers =
      [("tools", .mapping [("a", .bool true), ("b", .bool false)]), ("tone", .string "kind"),
        ("draft", .null), ("early", .list [])] := by
  have hd : ∀ f ∈ layers, (Value.mapping f).Distinct := by
    simp [layers, keys, Value.Distinct, Value.DistinctEntries, Value.DistinctItems]
  refine ⟨hd, ?_⟩
  rw [← mergeAll_eq_columnwise layers hd]
  rfl

end Fragment
end FlatConfig
