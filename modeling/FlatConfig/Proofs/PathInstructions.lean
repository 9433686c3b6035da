import FlatConfig.Proofs.Unset

set_option autoImplicit false

namespace FlatConfig

namespace Expand

/-- What is made of an entry that can be read: its own text is taken as it stands, a reference takes
the rendered text of the set it names. -/
inductive Becomes (sets : Fragment) (entry : Value) : Value → Prop where
  | inline {path text : String} (hentry : PathInstruction.decode entry = .ok ⟨path, .text text⟩) :
      Becomes sets entry (.mapping [("path", .string path), ("instructions", .string text)])
  | reference {path : String} {r : InstructionRef} {v : Value} {set : InstructionSet}
      (hentry : PathInstruction.decode entry = .ok ⟨path, .reference r⟩)
      (hv : sets.get? r.set = some v) (hset : InstructionSet.decode v = .ok set) :
      Becomes sets entry (.mapping
        [("path", .string path),
         ("instructions", .string (Template.render set.instructions
           (r.parameters.map fun (key, w) => (key, InstructionRef.parameterText w))).text)])

def RefersTo (entry : Value) (name : String) : Prop :=
  ∃ path r, PathInstruction.decode entry = .ok ⟨path, .reference r⟩ ∧ r.set = name

theorem value_findSet_eq_some_iff {sets : Fragment} {name : String} {set : InstructionSet} :
    (findSet sets name).value = some set ↔
      ∃ v, sets.get? name = some v ∧ InstructionSet.decode v = .ok set := by
  rw [findSet]
  cases sets.get? name with
  | none => simp
  | some v => cases h : InstructionSet.decode v <;> simp [h]

theorem value_lowerEntry_eq_some_iff {sets : Fragment} {entry v : Value} :
    (lowerEntry sets entry).value = some v ↔ Becomes sets entry v := by
  constructor
  · intro h
    rw [lowerEntry] at h
    split at h
    · cases h
    · rename_i path text hentry
      obtain rfl := Option.some.inj h
      exact .inline hentry
    · rename_i path r hentry
      rw [Logged.value_bind] at h
      split at h
      · rename_i set hset
        obtain ⟨w, hw, hset⟩ := value_findSet_eq_some_iff.mp hset
        obtain rfl := Option.some.inj h
        exact .reference hentry hw hset
      · cases h
  · intro h
    cases h with
    | inline hentry => rw [lowerEntry, hentry]; rfl
    | reference hentry hv hset =>
      have hfound := value_findSet_eq_some_iff.mpr ⟨_, hv, hset⟩
      rw [lowerEntry, hentry]
      simp only [Logged.value_bind, hfound]
      rfl

/-- An entry sees no other set than the one it names. -/
theorem lowerEntry_congr {a b : Fragment} {entry : Value}
    (h : ∀ name, RefersTo entry name → a.get? name = b.get? name) :
    lowerEntry a entry = lowerEntry b entry := by
  rw [lowerEntry, lowerEntry]
  split
  · rfl
  · rfl
  · rename_i path r hentry
    have hset : findSet a r.set = findSet b r.set := by
      rw [findSet, findSet, h r.set ⟨path, r, hentry, rfl⟩]
    rw [hset]

end Expand

namespace Fragment

open Expand

/-- The path instructions that a configuration has; where nothing is set there are none. -/
inductive HasPathInstructions (config : Fragment) : List Value → Prop where
  | noReviews (h : Value.set? (config.get? "reviews") = none) : HasPathInstructions config []
  | noList {reviews : Fragment} (hreviews : config.get? "reviews" = some (.mapping reviews))
      (h : Value.set? (reviews.get? "path_instructions") = none) : HasPathInstructions config []
  | list {reviews : Fragment} {items : List Value}
      (hreviews : config.get? "reviews" = some (.mapping reviews))
      (h : reviews.get? "path_instructions" = some (.list items)) :
      HasPathInstructions config items

theorem hasPathInstructions_of_list {config reviews : Fragment} {items : List Value}
    (hreviews : Container.reviews.mapping config = .ok reviews)
    (hitems : Container.pathInstructions.list reviews = .ok items) :
    HasPathInstructions config items := by
  rcases Container.mapping_eq_ok_iff.mp hreviews with ⟨hnone, rfl⟩ | hreviews
  · obtain rfl : [] = items := Except.ok.inj hitems
    exact .noReviews hnone
  · rcases Container.list_eq_ok_iff.mp hitems with ⟨hnone, rfl⟩ | hitems
    · exact .noList hreviews hnone
    · exact .list hreviews hitems

theorem HasPathInstructions.congr {a b : Fragment} {items : List Value}
    (h : a.get? "reviews" = b.get? "reviews") (ha : a.HasPathInstructions items) :
    b.HasPathInstructions items := by
  cases ha with
  | noReviews hnone => exact .noReviews (h ▸ hnone)
  | noList hreviews hnone => exact .noList (h ▸ hreviews) hnone
  | list hreviews hitems => exact .list (h ▸ hreviews) hitems

/-- Adding packages leaves everything within `reviews` but the tools. -/
theorem get?_reviews_of_run_collectionPlan {fragment config result reviews : Fragment}
    (hreviews : config.get? "reviews" = some (.mapping reviews))
    (h : (fragment.collectionPlan.run config).value = .ok result) :
    ∃ after : Fragment, result.get? "reviews" = some (.mapping after) ∧
      ∀ key, key ≠ "tools" → after.get? key = reviews.get? key := by
  cases hplan : fragment.collectionPlan with
  | none =>
    rw [hplan] at h
    obtain rfl : config = result := Except.ok.inj h
    exact ⟨reviews, hreviews, fun _ _ => rfl⟩
  | some work =>
    rw [hplan] at h
    cases work with
    | error e => exact absurd ⟨result, h⟩ (Plan.not_succeeds_run_error e config)
    | ok work =>
      obtain ⟨collections, rfl⟩ := collectionPlan_eq_ok hplan
      obtain ⟨inner, after, hinner, hafter, rfl⟩ := Container.within_eq_ok h
      have hmapping : Container.reviews.mapping config = .ok reviews :=
        Container.mapping_eq_ok_iff.mpr (.inr hreviews)
      obtain rfl : inner = reviews := Except.ok.inj (hinner.symm.trans hmapping)
      obtain ⟨_, tools, _, _, rfl⟩ := Container.within_eq_ok hafter
      refine ⟨_, (get?_insert _ _ _ _).trans (if_pos rfl), fun key hkey => ?_⟩
      exact (get?_insert _ _ _ _).trans (if_neg (Ne.symm hkey))

theorem run_pathPlan_eq_ok {fragment config result : Fragment} {sets entries : Value}
    (hsets : fragment.extension? .instructionSets = some sets)
    (hentries : fragment.extension? .pathInstructions = some entries)
    (h : (fragment.pathPlan.run config).value = .ok result) :
    ∃ (named : Fragment) (items existing : List Value) (reviews : Fragment),
      sets = .mapping named ∧ entries = .list items ∧ config.HasPathInstructions existing ∧
      result.get? "reviews" = some (.mapping reviews) ∧
      reviews.get? "path_instructions" =
        some (.list (existing ++ (lowerEntries named items).value)) := by
  rw [pathPlan, hsets, hentries] at h
  cases sets with
  | mapping named =>
    cases entries with
    | list items =>
      obtain ⟨reviews, after, hreviews, hafter, rfl⟩ := Container.within_eq_ok h
      rw [appendPathInstructions, Attempt.value_bind] at hafter
      obtain ⟨existing, hexisting, hafter⟩ := bind_eq_ok.mp hafter
      obtain rfl := Except.ok.inj hafter
      exact ⟨named, items, existing, _, rfl, rfl, hasPathInstructions_of_list hreviews hexisting,
        (get?_insert _ _ _ _).trans (if_pos rfl), (get?_insert _ _ _ _).trans (if_pos rfl)⟩
    | _ => cases h
  | _ => cases h

/-- Only the sets that some entry names matter. -/
theorem expand_insert_sets_of_agree {fragment named others : Fragment} {items : List Value}
    (hsets : fragment.extension? .instructionSets = some (.mapping named))
    (hentries : fragment.extension? .pathInstructions = some (.list items))
    (h : ∀ entry ∈ items, ∀ name, RefersTo entry name → others.get? name = named.get? name) :
    (fragment.insert Extension.instructionSets.key (.mapping others)).expand =
      fragment.expand := by
  have hlowered : lowerEntries others items = lowerEntries named items :=
    lowerEntries_congr fun entry hentry => lowerEntry_congr (h entry hentry)
  have happend : appendPathInstructions others items = appendPathInstructions named items := by
    funext reviews
    rw [appendPathInstructions, appendPathInstructions, hlowered]
  refine expand_congr (withoutExtensions_insert _ _ _) ?_
    (collectionPlan_congr (extension?_insert_of_ne _ (by decide) _))
  rw [pathPlan_insert_sets, pathPlan, hsets, hentries]
  exact congrArg (fun work => (some (.ok work) : Plan)) happend

theorem get?_pathInstructions_expand {fragment result : Fragment} {sets entries : Value}
    (hsets : fragment.extension? .instructionSets = some sets)
    (hentries : fragment.extension? .pathInstructions = some entries)
    (h : fragment.expand.value = .ok result) :
    ∃ (named : Fragment) (items existing : List Value) (reviews : Fragment),
      sets = .mapping named ∧ entries = .list items ∧ fragment.HasPathInstructions existing ∧
      result.get? "reviews" = some (.mapping reviews) ∧
      reviews.get? "path_instructions" =
        some (.list (existing ++ (lowerEntries named items).value)) := by
  rw [expand_eq_plans, Attempt.value_bind] at h
  obtain ⟨lowered, hlowered, h⟩ := bind_eq_ok.mp h
  obtain ⟨named, items, existing, reviews, rfl, rfl, hexisting, hreviews, hlist⟩ :=
    run_pathPlan_eq_ok hsets hentries hlowered
  obtain ⟨after, hafter, hkept⟩ := get?_reviews_of_run_collectionPlan hreviews h
  have hget : fragment.withoutExtensions.get? "reviews" = fragment.get? "reviews" :=
    get?_withoutExtensions Extension.key_ne_reviews fragment
  refine ⟨named, items, existing, after, rfl, rfl, hexisting.congr hget, hafter, ?_⟩
  rw [hkept _ (by decide), hlist]

/-- The path instructions of an expanded configuration are those it had and then, in order, what
its entries become. No set matters that no entry names. -/
theorem expand_pathInstructions {fragment result : Fragment} {sets entries : Value}
    (hsets : fragment.extension? .instructionSets = some sets)
    (hentries : fragment.extension? .pathInstructions = some entries)
    (h : fragment.expand.value = .ok result) :
    ∃ (named : Fragment) (items existing : List Value) (contribution : Value → Option Value)
      (reviews : Fragment),
      sets = .mapping named ∧ entries = .list items ∧ fragment.HasPathInstructions existing ∧
      (∀ entry v, contribution entry = some v ↔ Becomes named entry v) ∧
      result.get? "reviews" = some (.mapping reviews) ∧
      reviews.get? "path_instructions" =
        some (.list (existing ++ items.filterMap contribution)) ∧
      ∀ others : Fragment,
        (∀ entry ∈ items, ∀ name, RefersTo entry name → others.get? name = named.get? name) →
        (fragment.insert "instruction_sets" (.mapping others)).expand = fragment.expand := by
  obtain ⟨named, items, existing, reviews, rfl, rfl, hexisting, hreviews, hlist⟩ :=
    get?_pathInstructions_expand hsets hentries h
  rw [value_lowerEntries] at hlist
  exact ⟨named, items, existing, fun entry => (lowerEntry named entry).value, reviews, rfl, rfl,
    hexisting, fun _ _ => value_lowerEntry_eq_some_iff, hreviews, hlist,
    fun others hothers => expand_insert_sets_of_agree hsets hentries hothers⟩

def houseSets : Fragment :=
  [("size", .mapping [("instructions", .string "At most \x7b\x7b n \x7d\x7d lines")]),
    ("old", .null)]

def houseEntries : List Value :=
  [.mapping [("path", .string "a"), ("instructions", .string "Keep \x7b\x7bn\x7d\x7d")],
    .mapping [("instructions", .string "Be brief")],
    .list [.string "b", .list [.string "size", .mapping [("n", .number (.integer 40))]]],
    .mapping [("path", .string "c"), ("instructions", .mapping [("use", .string "new")])]]

def houseRules : Fragment :=
  [("reviews", .mapping [("path_instructions", .list [.bool true])]),
    ("instruction_sets", .mapping houseSets),
    ("enhanced_path_instructions", .list houseEntries),
    ("rule_collections", .mapping [])]

def houseResult : Fragment :=
  [("reviews", .mapping
    [("path_instructions", .list
      [.bool true, lowered "a" "Keep \x7b\x7bn\x7d\x7d", lowered "b" "At most 40 lines"]),
     ("tools", .mapping
      [("ast-grep", .mapping [("packages", .list []), ("rule_dirs", .list [])])])])]

theorem expand_houseRules :
    houseRules.expand.value = .ok houseResult ∧
      (∃ (existing : List Value) (contribution : Value → Option Value),
        houseRules.HasPathInstructions existing ∧
        (∀ entry v, contribution entry = some v ↔ Becomes houseSets entry v) ∧
        existing ++ houseEntries.filterMap contribution =
          [.bool true, lowered "a" "Keep \x7b\x7bn\x7d\x7d", lowered "b" "At most 40 lines"]) ∧
      (houseRules.insert "instruction_sets" (.mapping (houseSets.erase "old"))).expand =
        houseRules.expand := by
  have hexpand : houseRules.expand.value = .ok houseResult := rfl
  obtain ⟨named, items, existing, contribution, reviews, hnamed, hitems, hexisting, hbecomes,
    hreviews, hlist, hothers⟩ := expand_pathInstructions rfl rfl hexpand
  obtain rfl : houseSets = named := Value.mapping.inj hnamed
  obtain rfl : houseEntries = items := Value.list.inj hitems
  refine ⟨hexpand, ⟨existing, contribution, hexisting, hbecomes, ?_⟩, hothers _ ?_⟩
  · obtain rfl := Value.mapping.inj (Option.some.inj hreviews)
    exact (Value.list.inj (Option.some.inj hlist)).symm
  · rintro entry hentry name ⟨path, r, hdecode, rfl⟩
    rw [get?_erase, if_neg]
    simp only [houseEntries, List.mem_cons, List.not_mem_nil, or_false] at hentry
    rcases hentry with rfl | rfl | rfl | rfl <;> cases hdecode <;> decide

end Fragment
end FlatConfig
