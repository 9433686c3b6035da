import FlatConfig.Expand
import FlatConfig.Proofs.Same
import Mathlib.Data.List.Induction
import Mathlib.Data.List.Nodup

set_option autoImplicit false

namespace FlatConfig

namespace Expand

/-- The second list holds, in order, the elements of the first that no element before is equal
to. -/
inductive Firsts : List Value → List Value → Prop where
  | nil : Firsts [] []
  | new {l kept : List Value} {v : Value} (h : Firsts l kept) (hv : ∀ w ∈ l, ¬ w.Equal v) :
      Firsts (l ++ [v]) (kept ++ [v])
  | repeated {l kept : List Value} {v : Value} (h : Firsts l kept) (hv : ∃ w ∈ l, w.Equal v) :
      Firsts (l ++ [v]) kept

theorem dedup_concat (l : List Value) (v : Value) :
    dedup (l ++ [v]) = if (dedup l).any (·.same v) then dedup l else dedup l ++ [v] := by
  rw [dedup, List.foldl_append]
  rfl

theorem dedup_of_any {l : List Value} {v : Value} (h : ∃ w ∈ dedup l, w.same v = true) :
    dedup (l ++ [v]) = dedup l := by
  rw [dedup_concat, if_pos (List.any_eq_true.mpr h)]

theorem dedup_of_forall {l : List Value} {v : Value} (h : ∀ w ∈ dedup l, w.same v = false) :
    dedup (l ++ [v]) = dedup l ++ [v] := by
  have hnone : ¬ (dedup l).any (·.same v) := by simpa using h
  rw [dedup_concat, if_neg hnone]

theorem dedup_concat_cases (l : List Value) (v : Value) :
    (∃ w ∈ dedup l, w.same v = true) ∧ dedup (l ++ [v]) = dedup l ∨
      (∀ w ∈ dedup l, w.same v = false) ∧ dedup (l ++ [v]) = dedup l ++ [v] := by
  by_cases h : ∃ w ∈ dedup l, w.same v = true
  · exact .inl ⟨h, dedup_of_any h⟩
  · have hnone : ∀ w ∈ dedup l, w.same v = false := by simpa using h
    exact .inr ⟨hnone, dedup_of_forall hnone⟩

theorem dedup_sublist (l : List Value) : (dedup l).Sublist l := by
  induction l using List.reverseRecOn with
  | nil => exact .slnil
  | append_singleton l v ih =>
    rcases dedup_concat_cases l v with ⟨-, h⟩ | ⟨-, h⟩
    · rw [h]
      exact ih.trans (List.sublist_append_left l [v])
    · rw [h]
      exact ih.append_right [v]

theorem dedup_append_left (l m : List Value) : dedup l <+: dedup (l ++ m) := by
  induction m using List.reverseRecOn with
  | nil => simp
  | append_singleton m v ih =>
    rw [← List.append_assoc]
    rcases dedup_concat_cases (l ++ m) v with ⟨-, h⟩ | ⟨-, h⟩
    · rwa [h]
    · rw [h]
      exact ih.trans (List.prefix_append _ _)

theorem pairwise_dedup (l : List Value) : (dedup l).Pairwise fun v w => v.same w = false := by
  induction l using List.reverseRecOn with
  | nil => exact .nil
  | append_singleton l v ih =>
    rcases dedup_concat_cases l v with ⟨-, h⟩ | ⟨hnew, h⟩
    · rwa [h]
    · rw [h]
      exact List.pairwise_append.mpr ⟨ih, List.pairwise_singleton _ _, by simpa using hnew⟩

theorem exists_same_of_mem {l : List Value} {v : Value} (hv : v ∈ l) (hrefl : v.same v = true) :
    ∃ w ∈ dedup l, w.same v = true := by
  induction l using List.reverseRecOn with
  | nil => cases hv
  | append_singleton l u ih =>
    rcases List.mem_append.mp hv with hv | hv
    · obtain ⟨w, hw, hsame⟩ := ih hv
      exact ⟨w, (dedup_append_left l [u]).subset hw, hsame⟩
    · obtain rfl := List.mem_singleton.mp hv
      rcases dedup_concat_cases l v with ⟨h, heq⟩ | ⟨-, heq⟩
      · rwa [heq]
      · exact ⟨v, by simp [heq], hrefl⟩

theorem dedup_of_pairwise {l : List Value} (h : l.Pairwise fun v w => v.same w = false) :
    dedup l = l := by
  induction l using List.reverseRecOn with
  | nil => rfl
  | append_singleton l v ih =>
    obtain ⟨hl, -, hv⟩ := List.pairwise_append.mp h
    have hkept := ih hl
    rw [dedup_of_forall (by simpa [hkept] using hv), hkept]

theorem dedup_of_covered {l m : List Value} (h : ∀ v ∈ m, ∃ w ∈ dedup l, w.same v = true) :
    dedup (l ++ m) = dedup l := by
  induction m using List.reverseRecOn with
  | nil => rw [List.append_nil]
  | append_singleton m v ih =>
    have hm := ih fun u hu => h u (List.mem_append_left [v] hu)
    rw [← List.append_assoc, dedup_of_any (hm ▸ h v (by simp)), hm]

/-- Adding again what has been added, to what is left, adds nothing. -/
theorem dedup_absorbs {l m : List Value} (h : ∀ v ∈ m, v.same v = true) :
    dedup (dedup (l ++ m) ++ m) = dedup (l ++ m) := by
  have hkept := dedup_of_pairwise (pairwise_dedup (l ++ m))
  rw [dedup_of_covered, hkept]
  intro v hv
  rw [hkept]
  exact exists_same_of_mem (List.mem_append_right l hv) (h v hv)

/-- What is left of two lists, one after the other. -/
structure Deduplicates (existing added result : List Value) : Prop where
  firsts : Firsts (existing ++ added) result
  pairwise : result.Pairwise fun v w => ¬ v.Equal w
  subset : ∀ v ∈ result, v ∈ existing ++ added
  covers : ∀ v ∈ existing ++ added, ∃ w ∈ result, w.Equal v
  begins : ∃ kept, Firsts existing kept ∧ kept <+: result

section

variable {l : List Value} (hd : ∀ v ∈ l, v.Distinct)
include hd

theorem distinct_of_mem_dedup {v : Value} (hv : v ∈ dedup l) : v.Distinct :=
  hd v ((dedup_sublist l).subset hv)

theorem exists_equal_of_mem {v : Value} (hv : v ∈ l) : ∃ w ∈ dedup l, w.Equal v := by
  obtain ⟨w, hw, hsame⟩ := exists_same_of_mem hv (Value.same_refl (hd v hv))
  exact ⟨w, hw, Value.equal_of_same (distinct_of_mem_dedup hd hw) hsame⟩

theorem pairwise_dedup_not_equal : (dedup l).Pairwise fun v w => ¬ v.Equal w := by
  refine (pairwise_dedup l).imp_of_mem fun hv _ hsame hequal => ?_
  rw [Value.same_of_equal (distinct_of_mem_dedup hd hv) hequal] at hsame
  cases hsame

theorem nodup_dedup : (dedup l).Nodup := by
  apply (pairwise_dedup_not_equal hd).imp
  rintro v _ h rfl
  exact h (.refl v)

theorem firsts_dedup : Firsts l (dedup l) := by
  induction l using List.reverseRecOn with
  | nil => exact .nil
  | append_singleton l v ih =>
    have hl : ∀ w ∈ l, w.Distinct := fun w hw => hd w (List.mem_append_left [v] hw)
    rcases dedup_concat_cases l v with ⟨⟨w, hw, hsame⟩, h⟩ | ⟨hnew, h⟩
    · rw [h]
      exact .repeated (ih hl) ⟨w, (dedup_sublist l).subset hw,
        Value.equal_of_same (distinct_of_mem_dedup hl hw) hsame⟩
    · rw [h]
      refine .new (ih hl) fun w hw hequal => ?_
      -- what is left of `w` would be equal to the new element too
      obtain ⟨u, hu, huw⟩ := exists_equal_of_mem hl hw
      have hsame := Value.same_of_equal (distinct_of_mem_dedup hl hu) (huw.trans hequal)
      rw [hnew u hu] at hsame
      cases hsame

end

theorem deduplicates_dedup {existing added : List Value}
    (hd : ∀ v ∈ existing ++ added, v.Distinct) :
    Deduplicates existing added (dedup (existing ++ added)) where
  firsts := firsts_dedup hd
  pairwise := pairwise_dedup_not_equal hd
  subset _ hv := (dedup_sublist _).subset hv
  covers _ hv := exists_equal_of_mem hd hv
  begins := ⟨dedup existing, firsts_dedup fun v hv => hd v (List.mem_append_left added hv),
    dedup_append_left existing added⟩

theorem distinct_texts {existing : List Value} (hd : ∀ v ∈ existing, v.Distinct)
    (names : List String) : ∀ v ∈ existing ++ names.map .string, v.Distinct := by
  intro v hv
  rcases List.mem_append.mp hv with hv | hv
  · exact hd v hv
  · obtain ⟨name, -, rfl⟩ := List.mem_map.mp hv
    trivial

/-- Of the texts those stay that nothing before them is equal to, and each of them stands for
itself. -/
theorem mem_dedup_texts_iff {existing : List Value} (hd : ∀ v ∈ existing, v.Distinct)
    (names : List String) {v : Value} :
    v ∈ dedup (existing ++ names.map .string) ↔
      v ∈ dedup existing ∨
        (∃ name ∈ names, v = .string name) ∧ ∀ w ∈ dedup existing, ¬ w.Equal v := by
  have hall := distinct_texts hd names
  obtain ⟨new, hnew⟩ := dedup_append_left existing (names.map .string)
  obtain ⟨-, -, hapart⟩ := List.pairwise_append.mp (hnew ▸ pairwise_dedup_not_equal hall)
  rw [← hnew, List.mem_append]
  refine or_congr_right ⟨fun hv => ⟨?_, fun w hw => hapart w hw v hv⟩, ?_⟩
  · have hmem : v ∈ existing ++ names.map .string :=
      (dedup_sublist _).subset (hnew ▸ List.mem_append_right _ hv)
    rcases List.mem_append.mp hmem with hv' | hv'
    · obtain ⟨w, hw, hequal⟩ := exists_equal_of_mem hd hv'
      exact absurd hequal (hapart w hw v hv)
    · obtain ⟨name, hname, rfl⟩ := List.mem_map.mp hv'
      exact ⟨name, hname, rfl⟩
  · rintro ⟨⟨name, hname, rfl⟩, hnone⟩
    obtain ⟨w, hw, hequal⟩ := exists_equal_of_mem hall
      (List.mem_append_right existing (List.mem_map_of_mem hname))
    rw [← hnew, List.mem_append] at hw
    rcases hw with hw | hw
    · exact absurd hequal (hnone w hw)
    · cases hequal
      exact hw

theorem perm_dedup_texts {existing : List Value} (hd : ∀ v ∈ existing, v.Distinct)
    {names others : List String} (h : names.Perm others) :
    (dedup (existing ++ names.map .string)).Perm (dedup (existing ++ others.map .string)) := by
  rw [List.perm_ext_iff_of_nodup (nodup_dedup (distinct_texts hd names))
    (nodup_dedup (distinct_texts hd others))]
  intro v
  rw [mem_dedup_texts_iff hd, mem_dedup_texts_iff hd]
  simp only [h.mem_iff]

end Expand
end FlatConfig
