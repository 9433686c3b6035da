import FlatConfig.Proofs.Absorbed

set_option autoImplicit false

namespace FlatConfig

namespace Value

/-- At some path `middle` is set and no mapping, while the values around it are mappings there. -/
def Obstructed (first middle last : Value) : Prop :=
  ∃ path a v c, first.at? path = some (.mapping a) ∧ middle.at? path = some v ∧
    last.at? path = some (.mapping c) ∧ v ≠ .null ∧ ∀ m, v ≠ .mapping m

theorem obstructed_of_get? {a b c : Fragment} {key : String} {u v w : Value}
    (hu : a.get? key = some u) (hv : b.get? key = some v) (hw : c.get? key = some w)
    (h : Obstructed u v w) : Obstructed (.mapping a) (.mapping b) (.mapping c) := by
  obtain ⟨path, m, x, n, hm, hx, hn, hset⟩ := h
  exact ⟨key :: path, m, x, n, by simpa [at?, get?, hu] using hm,
    by simpa [at?, get?, hv] using hx, by simpa [at?, get?, hw] using hn, hset⟩

theorem get?_of_obstructed {a b c : Fragment}
    (h : Obstructed (.mapping a) (.mapping b) (.mapping c)) :
    ∃ key u v w, a.get? key = some u ∧ b.get? key = some v ∧ c.get? key = some w ∧
      Obstructed u v w := by
  obtain ⟨path, m, x, n, hm, hx, hn, hset⟩ := h
  cases path with
  | nil =>
    obtain rfl : .mapping b = x := Option.some.inj hx
    exact absurd rfl (hset.2 b)
  | cons key path =>
    simp only [at?, get?, Option.bind_eq_some_iff] at hm hx hn
    obtain ⟨u, hu, hm⟩ := hm
    obtain ⟨v, hv, hx⟩ := hx
    obtain ⟨w, hw, hn⟩ := hn
    exact ⟨key, u, v, w, hu, hv, hw, path, m, x, n, hm, hx, hn, hset⟩

theorem not_obstructed_of_entries {a b c : Fragment}
    (h : ∀ e ∈ a, ∀ v w, b.get? e.1 = some v → c.get? e.1 = some w → ¬ Obstructed e.2 v w) :
    ¬ Obstructed (.mapping a) (.mapping b) (.mapping c) := by
  intro hobstructed
  obtain ⟨key, u, v, w, hu, hv, hw, huvw⟩ := get?_of_obstructed hobstructed
  exact h (key, u) (Fragment.mem_of_get? hu) v w hv hw huvw

theorem mapping_merge_of_not_mapping (kept : Fragment) {v : Value} (hm : ∀ m, v ≠ .mapping m) :
    merge (.mapping kept) v = .mapping kept := by
  cases v with
  | mapping m => exact absurd rfl (hm m)
  | _ => rfl

theorem merge_assoc_of_not_mapping {u : Value} (hm : ∀ m, u ≠ .mapping m) (v w : Value) :
    (u.merge v).merge w = u.merge (v.merge w) := by
  by_cases hn : u = .null
  · rw [hn, null_merge, null_merge]
  · rw [merge_of_not_mapping hn hm, merge_of_not_mapping hn hm, merge_of_not_mapping hn hm]

theorem merge_assoc_mapping {a b c : Fragment} (ha : a.keys.Nodup) (hb : b.keys.Nodup)
    (hc : c.keys.Nodup)
    (h : ∀ key u v w, a.get? key = some u → b.get? key = some v → c.get? key = some w →
      (u.merge v).merge w = u.merge (v.merge w)) :
    Fragment.merge (Fragment.merge a b) c = Fragment.merge a (Fragment.merge b c) := by
  have hab := Fragment.nodup_keys_merge ha b
  have hbc := Fragment.nodup_keys_merge hb c
  apply Fragment.ext_keys
  · rw [Fragment.keys_merge hab, Fragment.keys_merge ha, Fragment.keys_merge ha,
      Fragment.keys_merge hb, eraseDups_append_left, eraseDups_append_right, List.append_assoc]
  · exact Fragment.nodup_keys_merge hab c
  intro key
  rw [Fragment.get?_merge_of_nodup _ hc, Fragment.get?_merge_of_nodup _ hb,
    Fragment.get?_merge_of_nodup _ hbc, Fragment.get?_merge_of_nodup _ hc]
  cases hw : Fragment.get? c key with
  | none => cases Fragment.get? b key <;> rfl
  | some w =>
    cases hv : Fragment.get? b key with
    | none => rfl
    | some v =>
      cases hu : Fragment.get? a key with
      | none => rfl
      | some u => exact congrArg some (h key u v w hu hv hw)

theorem mapping_merge_assoc_of_not_mapping (a : Fragment) (v : Value) {w : Value}
    (hm : ∀ m, w ≠ .mapping m) :
    (merge (.mapping a) v).merge w = merge (.mapping a) (v.merge w) := by
  have hkept : ∀ x : Value, (∀ m, x ≠ .mapping m) → merge (.mapping a) x = .mapping a :=
    fun _ => mapping_merge_of_not_mapping a
  by_cases hv : ∃ b, v = .mapping b
  · obtain ⟨b, rfl⟩ := hv
    rw [mapping_merge_of_not_mapping b hm]
    exact mapping_merge_of_not_mapping _ hm
  · have hv : ∀ m, v ≠ .mapping m := not_exists.mp hv
    rw [hkept v hv, hkept w hm]
    by_cases hn : v = .null
    · rw [hn, null_merge, hkept w hm]
    · rw [merge_of_not_mapping hn hv, hkept v hv]

/-- Three values merge alike in both groupings unless the middle one hides the last. -/
theorem assoc_of_not_obstructed {u v w : Value} (hu : u.Distinct) (hv : v.Distinct)
    (hw : w.Distinct) (h : ¬ Obstructed u v w) : (u.merge v).merge w = u.merge (v.merge w) := by
  induction w using induction_nested generalizing u v with
  | mapping c ih =>
    cases u with
    | mapping a =>
      cases v with
      | null => rfl
      | mapping b =>
        refine congrArg mapping (merge_assoc_mapping hu.1 hv.1 hw.1 ?_)
        intro key x y z hx hy hz
        exact ih key z hz (Fragment.distinct_of_get? hu hx) (Fragment.distinct_of_get? hv hy)
          (Fragment.distinct_of_get? hw hz) fun hxyz => h (obstructed_of_get? hx hy hz hxyz)
      | _ => exact absurd ⟨[], _, _, _, rfl, rfl, rfl, by simp, by simp⟩ h
    | _ => exact merge_assoc_of_not_mapping (by simp) _ _
  | _ =>
    cases u with
    | mapping a => exact mapping_merge_assoc_of_not_mapping a v (by simp)
    | _ => exact merge_assoc_of_not_mapping (by simp) _ _

end Value

namespace Fragment

/-- Only a value that stands between two mappings makes a difference to the grouping. -/
theorem merge_assoc_of_not_obstructed {a b c : Fragment} (ha : (Value.mapping a).Distinct)
    (hb : (Value.mapping b).Distinct) (hc : (Value.mapping c).Distinct)
    (h : ¬ Value.Obstructed (.mapping a) (.mapping b) (.mapping c)) :
    merge (merge a b) c = merge a (merge b c) :=
  Value.mapping.inj (Value.assoc_of_not_obstructed ha hb hc h)

def strictTools : Fragment :=
  [("lint", .bool true), ("style", .mapping [("level", .null)])]

def sharedTools : Fragment :=
  [("style", .mapping [("indent", .bool false)]), ("depth", .string "full")]

def fallbackTools : Fragment :=
  [("style", .mapping [("level", .string "high"), ("indent", .bool true)]),
    ("depth", .mapping [("max", .null)]), ("lint", .mapping [])]

/-- The texts meet no mapping before them or none after them, and nulls are filled. -/
theorem merge_assoc_tools :
    ¬ Value.Obstructed (.mapping [("tools", .mapping strictTools), ("tone", .mapping [])])
        (.mapping [("tone", .string "kind"), ("tools", .mapping sharedTools)])
        (.mapping [("tools", .mapping fallbackTools), ("early", .mapping [])]) ∧
      merge (merge [("tools", .mapping strictTools), ("tone", .mapping [])]
          [("tone", .string "kind"), ("tools", .mapping sharedTools)])
          [("tools", .mapping fallbackTools), ("early", .mapping [])] =
        merge [("tools", .mapping strictTools), ("tone", .mapping [])]
          (merge [("tone", .string "kind"), ("tools", .mapping sharedTools)]
            [("tools", .mapping fallbackTools), ("early", .mapping [])]) ∧
      merge (merge strictTools sharedTools) fallbackTools =
        [("lint", .bool true),
          ("style", .mapping [("level", .string "high"), ("indent", .bool false)]),
          ("depth", .string "full")] := by
  have hstyle : ¬ Value.Obstructed (.mapping [("level", .null)])
      (.mapping [("indent", .bool false)])
      (.mapping [("level", .string "high"), ("indent", .bool true)]) := by
    apply Value.not_obstructed_of_entries
    simp [get?_cons]
  have htools : ¬ Value.Obstructed (.mapping strictTools) (.mapping sharedTools)
      (.mapping fallbackTools) := by
    apply Value.not_obstructed_of_entries
    simpa [strictTools, sharedTools, fallbackTools, get?_cons] using hstyle
  have h : ¬ Value.Obstructed (.mapping [("tools", .mapping strictTools), ("tone", .mapping [])])
      (.mapping [("tone", .string "kind"), ("tools", .mapping sharedTools)])
      (.mapping [("tools", .mapping fallbackTools), ("early", .mapping [])]) := by
    apply Value.not_obstructed_of_entries
    simpa [get?_cons] using htools
  refine ⟨h, merge_assoc_of_not_obstructed ?_ ?_ ?_ h, rfl⟩ <;>
    simp [strictTools, sharedTools, fallbackTools, keys, Value.Distinct, Value.DistinctEntries]

/-- A text in the middle hides the last mapping in one of the groupings. -/
example :
    merge (merge [("tools", .mapping [])] [("tools", .string "none")])
        [("tools", .mapping [("lint", .null)])] ≠
      merge [("tools", .mapping [])]
        (merge [("tools", .string "none")] [("tools", .mapping [("lint", .null)])]) := by
  decide

end Fragment
end FlatConfig
