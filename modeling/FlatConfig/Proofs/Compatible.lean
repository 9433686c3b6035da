import FlatConfig.Proofs.Columnwise
import FlatConfig.Proofs.Same
import Mathlib.Data.List.Pairwise

set_option autoImplicit false

namespace FlatConfig

namespace Value

/-- Null goes with every value, and two mappings go together when their values at common keys do. -/
inductive Compatible : Value → Value → Prop where
  | null_left (v : Value) : Compatible .null v
  | null_right (v : Value) : Compatible v .null
  | same {v w : Value} (h : v.same w = true) : Compatible v w
  | mapping {a b : Fragment}
      (h : ∀ key v w, a.get? key = some v → b.get? key = some w → Compatible v w) :
      Compatible (.mapping a) (.mapping b)

namespace Compatible

theorem refl {v : Value} (hd : v.Distinct) : Compatible v v := .same (same_refl hd)

theorem symm {v w : Value} (h : Compatible v w) (hv : v.Distinct) (hw : w.Distinct) :
    Compatible w v := by
  induction h with
  | null_left w => exact .null_right w
  | null_right v => exact .null_left v
  | same h => exact .same (same_symm hv hw h)
  | mapping _ ih =>
    refine .mapping fun key w v hw' hv' => ?_
    exact ih key v w hv' hw' (Fragment.distinct_of_get? hv hv') (Fragment.distinct_of_get? hw hw')

theorem get? {a b : Fragment} (h : Compatible (.mapping a) (.mapping b)) (hd : a.keys.Nodup)
    {key : String} {v w : Value} (hv : a.get? key = some v) (hw : b.get? key = some w) :
    Compatible v w := by
  cases h with
  | same h => exact .same (((same_mapping_iff hd).mp h).2 key v w hv hw)
  | mapping h => exact h key v w hv hw

theorem of_entries {a b : Fragment}
    (h : ∀ e ∈ a, ∀ w, b.get? e.1 = some w → Compatible e.2 w) :
    Compatible (.mapping a) (.mapping b) :=
  .mapping fun key v w hv hw => h (key, v) (Fragment.mem_of_get? hv) w hw

/-- Compatible values that are set are both mappings, or neither is and they are the same. -/
theorem mappings_or_same {v w : Value} (h : Compatible v w) (hv : v ≠ .null) (hw : w ≠ .null) :
    (∃ a b, v = .mapping a ∧ w = .mapping b) ∨
      (∀ m, v ≠ .mapping m) ∧ (∀ m, w ≠ .mapping m) ∧ v.same w = true := by
  cases h with
  | null_left => exact absurd rfl hv
  | null_right => exact absurd rfl hw
  | same h => cases v <;> cases w <;> simp_all [Value.same]
  | @mapping a b _ => exact .inl ⟨a, b, rfl, rfl⟩

end Compatible

theorem firstSet?_eq_none_iff {values : List Value} :
    firstSet? values = none ↔ ∀ v ∈ values, v = .null := by
  simp only [firstSet?, List.find?_eq_none]
  refine forall₂_congr fun v _ => ?_
  cases v <;> simp [isNull]

theorem ne_null_of_firstSet? {values : List Value} {v : Value} (h : firstSet? values = some v) :
    v ≠ .null := by
  have hset := List.find?_some h
  rintro rfl
  simp [isNull] at hset

theorem mergeAll_of_not_mapping {values : List Value} {v : Value} (h : firstSet? values = some v)
    (hm : ∀ m, v ≠ .mapping m) (hd : ∀ m : Fragment, .mapping m ∈ values → m.keys.Nodup) :
    mergeAll values = some v := by
  rw [mergeAll_eq (List.ne_nil_of_mem (mem_of_firstSet? h)) hd, h]
  cases v with
  | mapping m => exact absurd rfl (hm m)
  | _ => rfl

theorem mergeAll_of_mapping {values : List Value} {m : Fragment}
    (h : firstSet? values = some (.mapping m))
    (hd : ∀ m : Fragment, .mapping m ∈ values → m.keys.Nodup) :
    mergeAll values = some (.mapping (Fragment.mergeAll (mappings values))) := by
  rw [mergeAll_eq (List.ne_nil_of_mem (mem_of_firstSet? h)) hd, h]

theorem mergeAll_of_null {values : List Value} (hne : values ≠ []) (h : firstSet? values = none)
    (hd : ∀ m : Fragment, .mapping m ∈ values → m.keys.Nodup) : mergeAll values = some .null := by
  rw [mergeAll_eq hne hd, h]

/-- Two orders of one column become the same when the two orders of its mappings do. -/
theorem same_of_mergeAll {vs ws : List Value} (hp : vs.Perm ws)
    (hd : ∀ m : Fragment, .mapping m ∈ vs → m.keys.Nodup) (hc : ∀ v ∈ vs, ∀ w ∈ vs, Compatible v w)
    (hmappings : ∀ m, .mapping m ∈ vs → same (.mapping (Fragment.mergeAll (mappings vs)))
      (.mapping (Fragment.mergeAll (mappings ws))) = true)
    {v w : Value} (hv : mergeAll vs = some v) (hw : mergeAll ws = some w) : v.same w = true := by
  have hdw : ∀ m : Fragment, .mapping m ∈ ws → m.keys.Nodup :=
    fun m hm => hd m (hp.mem_iff.mpr hm)
  have hnone : firstSet? vs = none ↔ firstSet? ws = none := by
    simp only [firstSet?_eq_none_iff, hp.mem_iff]
  cases hfirst : firstSet? vs with
  | none =>
    have hne : vs ≠ [] := by rintro rfl; simp [mergeAll] at hv
    have hnew : ws ≠ [] := by rintro rfl; simp [mergeAll] at hw
    rw [mergeAll_of_null hne hfirst hd] at hv
    rw [mergeAll_of_null hnew (hnone.mp hfirst) hdw] at hw
    cases hv
    cases hw
    rfl
  | some a =>
    obtain ⟨b, hb⟩ : ∃ b, firstSet? ws = some b := by
      apply Option.ne_none_iff_exists'.mp
      simp [← hnone, hfirst]
    have hab : Compatible a b :=
      hc a (mem_of_firstSet? hfirst) b (hp.mem_iff.mpr (mem_of_firstSet? hb))
    rcases hab.mappings_or_same (ne_null_of_firstSet? hfirst) (ne_null_of_firstSet? hb) with
      ⟨m, n, rfl, rfl⟩ | ⟨ha, hn, hsame⟩
    · rw [mergeAll_of_mapping hfirst hd] at hv
      rw [mergeAll_of_mapping hb hdw] at hw
      cases hv
      cases hw
      exact hmappings m (mem_of_firstSet? hfirst)
    · rw [mergeAll_of_not_mapping hfirst ha hd] at hv
      rw [mergeAll_of_not_mapping hb hn hdw] at hw
      cases hv
      cases hw
      exact hsame

end Value

namespace Fragment

theorem perm_keys_mergeAll {fragments others : List Fragment} (hp : fragments.Perm others) :
    (mergeAll fragments).keys.Perm (mergeAll others).keys := by
  apply (List.perm_ext_iff_of_nodup (nodup_keys_mergeAll _) (nodup_keys_mergeAll _)).mpr
  intro key
  simp only [keys_mergeAll, List.mem_eraseDups, List.mem_flatMap, hp.mem_iff]

theorem compatible_of_mem_column {fragments : List Fragment}
    (hd : ∀ f ∈ fragments, (Value.mapping f).Distinct)
    (hc : ∀ f ∈ fragments, ∀ g ∈ fragments, Value.Compatible (.mapping f) (.mapping g))
    {key : String} {v w : Value} (hv : v ∈ column fragments key) (hw : w ∈ column fragments key) :
    Value.Compatible v w := by
  obtain ⟨f, hf, hv⟩ := List.mem_filterMap.mp hv
  obtain ⟨g, hg, hw⟩ := List.mem_filterMap.mp hw
  exact (hc f hf g hg).get? (hd f hf).1 hv hw

theorem same_mergeAll {fragments others : List Fragment} (hp : fragments.Perm others)
    (hd : ∀ f ∈ fragments, (Value.mapping f).Distinct)
    (hc : ∀ f ∈ fragments, ∀ g ∈ fragments, Value.Compatible (.mapping f) (.mapping g)) :
    Value.same (.mapping (mergeAll fragments)) (.mapping (mergeAll others)) = true := by
  rw [Value.same_mapping_iff (nodup_keys_mergeAll _)]
  refine ⟨perm_keys_mergeAll hp, ?_⟩
  intro key v w hv hw
  have hothers : ∀ f ∈ others, (Value.mapping f).Distinct := fun f hf => hd f (hp.mem_iff.mpr hf)
  rw [get?_mergeAll, flatMap_valuesAt hd] at hv
  rw [get?_mergeAll, flatMap_valuesAt hothers] at hw
  have hcolumn : (column fragments key).Perm (column others key) := hp.filterMap _
  have hdistinct : ∀ f ∈ Value.mappings (column fragments key), (Value.mapping f).Distinct :=
    fun f hf => distinct_of_mem_column hd (Value.mem_mappings.mp hf)
  have hcompatible : ∀ f ∈ Value.mappings (column fragments key),
      ∀ g ∈ Value.mappings (column fragments key), Value.Compatible (.mapping f) (.mapping g) :=
    fun f hf g hg =>
      compatible_of_mem_column hd hc (Value.mem_mappings.mp hf) (Value.mem_mappings.mp hg)
  refine Value.same_of_mergeAll hcolumn ?_ ?_ ?_ hv hw
  · exact fun m hm => (distinct_of_mem_column hd hm).1
  · exact fun v hv w hw => compatible_of_mem_column hd hc hv hw
  -- one level further down, the mappings of this column are permuted and compatible in the same way
  · exact fun m hm => same_mergeAll (hcolumn.filterMap _) hdistinct hcompatible
termination_by sizeOf fragments
decreasing_by
  have hlt := Value.sizeOf_mappings_lt hm
  have hle := sizeOf_column_le fragments key
  omega

def Agree (a b : Fragment) : Prop :=
  Value.Compatible (.mapping a) (.mapping b) ∧ Value.Compatible (.mapping b) (.mapping a)

instance : Std.Symm Agree := ⟨fun _ _ h => ⟨h.2, h.1⟩⟩

/-- The order of fragments that do not contradict each other makes no difference to the data. -/
theorem same_mergeAll_of_perm {fragments others : List Fragment}
    (hd : ∀ f ∈ fragments, (Value.mapping f).Distinct)
    (hc : fragments.Pairwise fun f g => Value.Compatible (.mapping f) (.mapping g))
    (hp : fragments.Perm others) :
    Value.same (.mapping (mergeAll fragments)) (.mapping (mergeAll others)) = true := by
  have hagree : fragments.Pairwise Agree :=
    hc.imp_of_mem fun hf hg h => ⟨h, h.symm (hd _ hf) (hd _ hg)⟩
  have hself : ∀ f ∈ fragments, Agree f f := fun f hf => ⟨.refl (hd f hf), .refl (hd f hf)⟩
  exact same_mergeAll hp hd fun f hf g hg => (hagree.forall_of_forall hself hf hg).1

/-- Nulls, a mapping in two parts, and the two zeros of a float. -/
def agreeing : List Fragment :=
  [[("tone", .null), ("scale", .number (.float (.zero false))),
    ("tools", .mapping [("lint", .bool true), ("level", .null)])],
   [("tools", .mapping [("level", .string "high"), ("lint", .bool true)]),
    ("tone", .string "kind")],
   [("early", .list []), ("scale", .number (.float (.zero true))), ("tools", .null)]]

theorem same_agreeing_reverse :
    (∀ f ∈ agreeing, (Value.mapping f).Distinct) ∧
      (agreeing.Pairwise fun f g => Value.Compatible (.mapping f) (.mapping g)) ∧
      Value.same (.mapping (mergeAll agreeing)) (.mapping (mergeAll agreeing.reverse)) = true ∧
      mergeAll agreeing ≠ mergeAll agreeing.reverse := by
  have hd : ∀ f ∈ agreeing, (Value.mapping f).Distinct := by
    simp [agreeing, keys, Value.Distinct, Value.DistinctEntries, Value.DistinctItems]
  have hc : agreeing.Pairwise fun f g => Value.Compatible (.mapping f) (.mapping g) := by
    refine .cons (List.forall_mem_cons.mpr
        ⟨.of_entries ?_, List.forall_mem_singleton.mpr (.of_entries ?_)⟩)
      (.cons (List.forall_mem_singleton.mpr (.of_entries ?_)) (List.pairwise_singleton _ _))
    · have htools : Value.Compatible (.mapping [("lint", .bool true), ("level", .null)])
          (.mapping [("level", .string "high"), ("lint", .bool true)]) := by
        apply Value.Compatible.of_entries
        simpa [get?_cons] using ⟨.same rfl, .null_left _⟩
      simpa [get?_cons] using ⟨.null_left _, htools⟩
    · simpa [get?_cons] using ⟨.same rfl, .null_right _⟩
    · simpa [get?_cons] using .null_right _
  exact ⟨hd, hc, same_mergeAll_of_perm hd hc (List.reverse_perm _).symm, by decide⟩

end Fragment
end FlatConfig
