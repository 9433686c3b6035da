import FlatConfig.Proofs.Entries

set_option autoImplicit false

namespace FlatConfig

namespace Fragment

theorem sizeOf_get?_lt {fragment : Fragment} {key : String} {v : Value}
    (h : get? fragment key = some v) : sizeOf v < sizeOf fragment := by
  have hm := List.sizeOf_lt_of_mem (mem_of_get? h)
  simp at hm
  omega

theorem distinctEntries_iff {entries : Fragment} :
    Value.DistinctEntries entries ↔ ∀ e ∈ entries, e.2.Distinct := by
  induction entries with
  | nil => simp [Value.DistinctEntries]
  | cons e rest ih =>
    obtain ⟨k, v⟩ := e
    simp [Value.DistinctEntries, ih]

theorem distinct_of_get? {fragment : Fragment} {key : String} {v : Value}
    (hd : (Value.mapping fragment).Distinct) (h : get? fragment key = some v) : v.Distinct :=
  distinctEntries_iff.mp hd.2 _ (mem_of_get? h)

theorem get?_of_mem {fragment : Fragment} (hd : (keys fragment).Nodup) {key : String} {v : Value}
    (h : (key, v) ∈ fragment) : get? fragment key = some v := by
  induction fragment with
  | nil => simp at h
  | cons e rest ih =>
    obtain ⟨k, w⟩ := e
    obtain ⟨hk, hrest⟩ := List.nodup_cons.mp hd
    rcases List.mem_cons.mp h with he | hm
    · obtain ⟨rfl, rfl⟩ := Prod.mk.inj he
      exact get?_cons_self _ _ _
    · have hkey : key ∈ keys rest := List.mem_map_of_mem (f := Prod.fst) hm
      have hne : k ≠ key := fun he => hk (he ▸ hkey)
      rw [get?_cons, if_neg hne, ih hrest hm]

end Fragment

namespace Value

def at? : Value → List String → Option Value
  | v, [] => some v
  | v, key :: path => (v.get? key).bind (·.at? path)

theorem at?_concat (v : Value) (path : List String) (key : String) :
    v.at? (path ++ [key]) = (v.at? path).bind (·.get? key) := by
  induction path generalizing v with
  | nil => cases h : v.get? key <;> simp [at?, h]
  | cons first rest ih => cases h : v.get? first <;> simp [at?, h, ih]

@[elab_as_elim]
theorem induction_nested {motive : Value → Prop} (null : motive .null)
    (bool : ∀ b, motive (.bool b)) (number : ∀ n, motive (.number n))
    (string : ∀ s, motive (.string s))
    (list : ∀ items, (∀ item ∈ items, motive item) → motive (.list items))
    (mapping : ∀ entries : Fragment, (∀ key v, entries.get? key = some v → motive v) →
      motive (.mapping entries))
    (v : Value) : motive v := by
  match v with
  | .null => exact null
  | .bool b => exact bool b
  | .number n => exact number n
  | .string s => exact string s
  | .list items =>
    exact list items fun item h => induction_nested null bool number string list mapping item
  | .mapping entries =>
    exact mapping entries fun key v h => induction_nested null bool number string list mapping v
termination_by sizeOf v
decreasing_by
  · have hlt := List.sizeOf_lt_of_mem h
    simp
    omega
  · have hlt := Fragment.sizeOf_get?_lt h
    simp
    omega

theorem distinctItems_iff {items : List Value} :
    DistinctItems items ↔ ∀ item ∈ items, item.Distinct := by
  induction items with
  | nil => simp [DistinctItems]
  | cons item rest ih => simp [DistinctItems, ih]

theorem distinct_mapping_iff {entries : Fragment} :
    (mapping entries).Distinct ↔
      entries.keys.Nodup ∧ ∀ key v, entries.get? key = some v → v.Distinct := by
  constructor
  · intro h
    exact ⟨h.1, fun _ _ hv => Fragment.distinct_of_get? h hv⟩
  · rintro ⟨hd, hv⟩
    exact ⟨hd, Fragment.distinctEntries_iff.mpr fun e he => hv e.1 e.2 (Fragment.get?_of_mem hd he)⟩

end Value
end FlatConfig
