import FlatConfig.Expand
import FlatConfig.Proofs.Attempt
import FlatConfig.Proofs.Entries

set_option autoImplicit false

namespace FlatConfig

namespace Fragment

theorem get?_withoutExtensions_self (fragment : Fragment) (field : Extension) :
    get? fragment.withoutExtensions field.key = none := by
  simp only [withoutExtensions, Extension.all, List.foldl_cons, List.foldl_nil, get?_erase]
  cases field <;> simp [Extension.key]

theorem get?_withoutExtensions {key : String} (h : ∀ field : Extension, field.key ≠ key)
    (fragment : Fragment) : get? fragment.withoutExtensions key = get? fragment key := by
  simp only [withoutExtensions, Extension.all, List.foldl_cons, List.foldl_nil, get?_erase,
    if_neg (h _)]

theorem not_mem_keys_withoutExtensions (fragment : Fragment) (field : Extension) :
    field.key ∉ keys fragment.withoutExtensions :=
  get?_eq_none_iff.mp (get?_withoutExtensions_self fragment field)

theorem nodup_keys_withoutExtensions {fragment : Fragment} (h : (keys fragment).Nodup) :
    (keys fragment.withoutExtensions).Nodup := by
  simp only [withoutExtensions, Extension.all, List.foldl_cons, List.foldl_nil, keys_erase]
  exact ((h.filter _).filter _).filter _

theorem withoutExtensions_eq_self {fragment : Fragment}
    (h : ∀ field : Extension, field.key ∉ keys fragment) :
    fragment.withoutExtensions = fragment := by
  simp only [withoutExtensions, Extension.all, List.foldl_cons, List.foldl_nil,
    erase_of_not_mem (h _)]

theorem extension?_eq_none {fragment : Fragment} {field : Extension}
    (h : field.key ∉ keys fragment) : fragment.extension? field = none := by
  rw [extension?, get?_eq_none_iff.mpr h]
  rfl

end Fragment

theorem Container.value_within (c : Container) (work : Fragment → Attempt Fragment)
    (outer : Fragment) :
    (c.within work outer).value =
      c.mapping outer >>= fun inner =>
        (work inner).value >>= fun inner => .ok (outer.insert c.key (.mapping inner)) := by
  simp only [within, Attempt.value_bind, Attempt.value_ofExcept, Attempt.value_pure]

theorem Container.within_eq_ok {c : Container} {work : Fragment → Attempt Fragment}
    {outer r : Fragment} (h : (c.within work outer).value = .ok r) :
    ∃ inner after, c.mapping outer = .ok inner ∧ (work inner).value = .ok after ∧
      r = outer.insert c.key (.mapping after) := by
  rw [value_within] at h
  obtain ⟨inner, hinner, h⟩ := bind_eq_ok.mp h
  obtain ⟨after, hafter, h⟩ := bind_eq_ok.mp h
  exact ⟨inner, after, hinner, hafter, (Except.ok.inj h).symm⟩

theorem Container.within_eq_ok_iff {c : Container} {work : Fragment → Attempt Fragment}
    {outer r : Fragment} :
    (c.within work outer).value = .ok r ↔
      ∃ inner after, c.mapping outer = .ok inner ∧ (work inner).value = .ok after ∧
        r = outer.insert c.key (.mapping after) := by
  refine ⟨within_eq_ok, ?_⟩
  rintro ⟨inner, after, hinner, hafter, rfl⟩
  rw [value_within, hinner, ok_bind, hafter, ok_bind]

namespace Fragment

def lowerPaths (fragment config : Fragment) : Attempt Fragment :=
  match fragment.extension? .instructionSets, fragment.extension? .pathInstructions with
  | some sets, some entries => do
    let sets ← Attempt.ofExcept (Expand.decodeMapping .instructionSets sets)
    let entries ← Attempt.ofExcept (Expand.decodeList .pathInstructions entries)
    Expand.lowerPathInstructions sets entries config
  | _, _ => pure config

def lowerCollections (fragment config : Fragment) : Attempt Fragment :=
  match fragment.extension? .ruleCollections with
  | some collections => do
    let collections ← Attempt.ofExcept (Expand.decodeMapping .ruleCollections collections)
    Expand.lowerRuleCollections collections config
  | none => pure config

theorem expand_eq (fragment : Fragment) :
    fragment.expand =
      fragment.lowerPaths fragment.withoutExtensions >>= fragment.lowerCollections := by
  unfold expand lowerPaths
  cases fragment.extension? .instructionSets <;>
    cases fragment.extension? .pathInstructions <;>
    simp only [bind_assoc, pure_bind] <;> rfl

/-- The mapping as it was, or with a new value for `reviews`. -/
def ReviewsOnly (config result : Fragment) : Prop :=
  result = config ∨ ∃ reviews, result = config.insert Container.reviews.key (.mapping reviews)

theorem lowerPaths_eq_ok {fragment config result : Fragment}
    (h : (fragment.lowerPaths config).value = .ok result) : ReviewsOnly config result := by
  unfold lowerPaths at h
  split at h
  · simp only [Attempt.value_bind] at h
    obtain ⟨sets, _, h⟩ := bind_eq_ok.mp h
    obtain ⟨entries, _, h⟩ := bind_eq_ok.mp h
    obtain ⟨_, reviews, _, _, h⟩ := Container.within_eq_ok h
    exact .inr ⟨reviews, h⟩
  · exact .inl (Except.ok.inj h).symm

theorem lowerCollections_eq_ok {fragment config result : Fragment}
    (h : (fragment.lowerCollections config).value = .ok result) : ReviewsOnly config result := by
  unfold lowerCollections at h
  split at h
  · simp only [Attempt.value_bind] at h
    obtain ⟨collections, _, h⟩ := bind_eq_ok.mp h
    obtain ⟨_, reviews, _, _, h⟩ := Container.within_eq_ok h
    exact .inr ⟨reviews, h⟩
  · exact .inl (Except.ok.inj h).symm

theorem expand_eq_ok {fragment result : Fragment} (h : fragment.expand.value = .ok result) :
    ReviewsOnly fragment.withoutExtensions result := by
  rw [expand_eq, Attempt.value_bind] at h
  obtain ⟨config, hpaths, hcollections⟩ := bind_eq_ok.mp h
  rcases lowerPaths_eq_ok hpaths with rfl | ⟨first, rfl⟩
  · exact lowerCollections_eq_ok hcollections
  · rcases lowerCollections_eq_ok hcollections with rfl | ⟨second, rfl⟩
    · exact .inr ⟨first, rfl⟩
    · exact .inr ⟨second, insert_insert _ _ _ _⟩

theorem expand_eq_pure {fragment : Fragment}
    (h : ∀ field : Extension, field.key ∉ keys fragment) : fragment.expand = pure fragment := by
  simp [expand, extension?_eq_none (h _), withoutExtensions_eq_self h]

end Fragment
end FlatConfig
