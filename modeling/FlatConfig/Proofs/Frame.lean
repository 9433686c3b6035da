import FlatConfig.Proofs.Places

/-!
What expanding leaves as it was.

A change says of two mappings which keys it may concern (`Fragment.Changes`): the keys keep their
places, new ones go to the end, and every other entry stays. Expanding changes `reviews`, and in it
only the places that its lowerings work in (`Fragment.expand_frame`).
-/

set_option autoImplicit false

namespace FlatConfig

namespace Fragment

def besides (keys : List String) (fragment : Fragment) : Fragment :=
  fragment.filter fun e => e.1 ∉ keys

/-- From one mapping to the other only the values at these keys are new. -/
structure Changes (targets : List String) (before after : Fragment) : Prop where
  keys_eq : keys after = keys before ++ targets.filter (· ∉ keys before)
  besides_eq : after.besides targets = before.besides targets

theorem besides_append (ks ls : List String) (fragment : Fragment) :
    fragment.besides (ks ++ ls) = (fragment.besides ls).besides ks := by
  rw [besides, besides, besides, List.filter_filter]
  apply List.filter_congr
  intro e _
  simp [not_or]

theorem get?_besides {targets : List String} {key : String} (h : key ∉ targets)
    (fragment : Fragment) : get? (fragment.besides targets) key = fragment.get? key := by
  induction fragment with
  | nil => rfl
  | cons e rest ih =>
    obtain ⟨k, v⟩ := e
    rw [besides] at ih ⊢
    by_cases hk : k = key
    · subst hk
      simp [h]
    · rw [List.filter_cons]
      split
      · rw [get?_cons, if_neg hk, ih, get?_cons, if_neg hk]
      · rw [ih, get?_cons, if_neg hk]

theorem withoutExtensions_eq_besides (fragment : Fragment) :
    fragment.withoutExtensions = fragment.besides (Extension.all.map Extension.key) := by
  rw [withoutExtensions_eq_filter, besides]
  apply List.filter_congr
  intro e _
  simp [Extension.all, bne, beq_eq_decide]

namespace Changes

variable {ks ls : List String} {a b c : Fragment}

theorem insert (m : Fragment) (key : String) (v : Value) : Changes [key] m (m.insert key v) where
  keys_eq := by
    rw [keys_insert]
    by_cases h : key ∈ keys m <;> simp [h]
  besides_eq := filter_insert (by simp) m v

theorem get?_eq (h : Changes ks a b) {key : String} (hkey : key ∉ ks) :
    b.get? key = a.get? key := by
  rw [← get?_besides hkey, h.besides_eq, get?_besides hkey]

theorem trans (hab : Changes ks a b) (hbc : Changes ls b c)
    (hdisjoint : ∀ key ∈ ks, key ∉ ls) :
    Changes (ks ++ ls) a c where
  keys_eq := by
    have hnew : ls.filter (· ∉ keys b) = ls.filter (· ∉ keys a) := by
      apply List.filter_congr
      intro key hkey
      have hother : key ∉ ks := fun h => hdisjoint key h hkey
      simp [hab.keys_eq, hother]
    rw [hbc.keys_eq, hnew, hab.keys_eq, List.filter_append, List.append_assoc]
  besides_eq := by
    rw [besides_append, hbc.besides_eq, ← besides_append]
    have hcomm (m : Fragment) : m.besides (ks ++ ls) = (m.besides ks).besides ls := by
      rw [besides_append, besides, besides, besides, besides, List.filter_comm]
    rw [hcomm, hcomm, hab.besides_eq]

/-- Once the keys are there, changing them again adds none. -/
theorem again (hab : Changes ks a b) (hbc : Changes ks b c) : Changes ks a c where
  keys_eq := by
    have hmem : ∀ key ∈ ks, key ∈ keys b := by
      intro key hkey
      by_cases h : key ∈ keys a <;> simp [hab.keys_eq, h, hkey]
    have hnone : ks.filter (· ∉ keys b) = [] := List.filter_eq_nil_iff.mpr (by simpa using hmem)
    rw [hbc.keys_eq, hnone, List.append_nil, hab.keys_eq]
  besides_eq := hbc.besides_eq.trans hab.besides_eq

end Changes

end Fragment

namespace Container

open Expand Fragment

/-- The mapping in this place is changed so. A place that is absent or null counts as an empty
mapping. -/
def Inside (c : Container) (change : Fragment → Fragment → Prop) (before after : Fragment) : Prop :=
  ∃ old new, (Value.set? (before.get? c.key) = none ∧ old = [] ∨
      before.get? c.key = some (.mapping old)) ∧
    after.get? c.key = some (.mapping new) ∧ change old new

structure Within (c : Container) (change : Fragment → Fragment → Prop) (before after : Fragment) :
    Prop where
  changes : Changes [c.key] before after
  inside : c.Inside change before after

variable {c : Container} {p q : Fragment → Fragment → Prop} {a b d : Fragment}

theorem Inside.of_get?_eq (h : c.Inside p a d) (hget : a.get? c.key = b.get? c.key) :
    c.Inside p b d := by
  rwa [Inside, hget] at h

theorem within_changes {work : Stage} {m r : Fragment} (h : (c.within work m).value = .ok r)
    (hwork : ∀ inner after, (work inner).value = .ok after → p inner after) : c.Within p m r := by
  obtain ⟨old, new, hold, hnew, rfl⟩ := within_eq_ok h
  exact ⟨.insert m c.key _, old, new, mapping_eq_ok_iff.mp hold, get?_insert_self _ _ _,
    hwork old new hnew⟩

namespace Within

theorem mono (h : c.Within p a b) (hp : ∀ old new, p old new → q old new) : c.Within q a b :=
  let ⟨old, new, hold, hnew, hchange⟩ := h.inside
  ⟨h.changes, old, new, hold, hnew, hp old new hchange⟩

theorem trans (hab : c.Within p a b) (hbd : c.Within q b d) :
    c.Within (fun old new => ∃ mid, p old mid ∧ q mid new) a d where
  changes := hab.changes.again hbd.changes
  inside := by
    obtain ⟨old, mid, hold, hmid, hp⟩ := hab.inside
    obtain ⟨_, new, hagain, hnew, hq⟩ := hbd.inside
    rw [hmid] at hagain
    rcases hagain with ⟨hunset, _⟩ | hagain
    · cases hunset
    · obtain rfl := Value.mapping.inj (Option.some.inj hagain)
      exact ⟨old, new, hold, hnew, mid, hp, hq⟩

end Within

end Container

namespace Fragment

open Expand

structure PathsFrame (old new : Fragment) : Prop where
  changes : Changes [Container.pathInstructions.key] old new
  list : ∃ items, new.get? Container.pathInstructions.key = some (.list items)

/-- Of what the tool has only its lists of packages and of directories are new. -/
structure AstGrepFrame (old new : Fragment) : Prop where
  changes : Changes [Container.packages.key, Container.ruleDirs.key] old new
  packages : ∃ items, new.get? Container.packages.key = some (.list items)
  ruleDirs : ∃ items, new.get? Container.ruleDirs.key = some (.list items)

abbrev ToolsFrame : Fragment → Fragment → Prop := Container.astGrep.Within AstGrepFrame

theorem pathsFrame_append {sets : Fragment} {entries : List Value} {m r : Fragment}
    (h : (appendPathInstructions sets entries m).value = .ok r) : PathsFrame m r := by
  simp only [appendPathInstructions, Attempt.value_bind, Attempt.value_ofExcept,
    Attempt.value_pure] at h
  obtain ⟨existing, _, h⟩ := bind_eq_ok.mp h
  obtain ⟨added, _, h⟩ := bind_eq_ok.mp h
  obtain rfl := Except.ok.inj h
  exact ⟨.insert m _ _, _, get?_insert_self m _ _⟩

theorem astGrepFrame_take {collections m r : Fragment}
    (h : (takePackages collections m).value = .ok r) : AstGrepFrame m r := by
  simp only [takePackages, Attempt.value_bind, Attempt.value_ofExcept, Attempt.value_pure] at h
  obtain ⟨packages, _, h⟩ := bind_eq_ok.mp h
  obtain ⟨ruleDirs, _, h⟩ := bind_eq_ok.mp h
  obtain ⟨added, _, h⟩ := bind_eq_ok.mp h
  obtain rfl := Except.ok.inj h
  have hpackages (v w : Value) : ((m.insert Container.packages.key v).insert
      Container.ruleDirs.key w).get? Container.packages.key = some v := by
    rw [get?_insert, if_neg (by decide), get?_insert_self]
  exact ⟨(Changes.insert m _ _).trans (.insert _ _ _) (by decide), ⟨_, hpackages _ _⟩,
    _, get?_insert_self _ _ _⟩

theorem within_tools_add {collections m r : Fragment}
    (h : (addPackages collections m).value = .ok r) : Container.tools.Within ToolsFrame m r :=
  Container.within_changes h fun _ _ htools =>
    Container.within_changes htools fun _ _ => astGrepFrame_take

end Fragment

namespace Expand

theorem Plan.run_eq_ok {plan : Plan} (change : Fragment → Fragment → Prop) {config r : Fragment}
    (h : (plan.run config).value = .ok r)
    (hwork : ∀ work, plan = some (.ok work) →
      ∀ inner after, (work inner).value = .ok after → change inner after) :
    plan ≠ none ∧ Container.reviews.Within change config r ∨ plan = none ∧ r = config := by
  match plan with
  | none => exact .inr ⟨rfl, (Except.ok.inj h).symm⟩
  | some (.error e) => exact absurd ⟨r, h⟩ (not_succeeds_run_error e config)
  | some (.ok work) => exact .inl ⟨nofun, Container.within_changes h (hwork work rfl)⟩

end Expand

namespace Fragment

open Expand

section

variable {fragment config r : Fragment}

theorem within_reviews_paths (h : (fragment.pathPlan.run config).value = .ok r) :
    fragment.LowersPaths ∧ Container.reviews.Within PathsFrame config r ∨
      ¬ fragment.LowersPaths ∧ r = config := by
  have hrun := Plan.run_eq_ok PathsFrame h fun work hwork inner after hafter => by
    obtain ⟨sets, entries, rfl⟩ := pathPlan_eq_ok hwork
    exact pathsFrame_append hafter
  rwa [Ne, pathPlan_eq_none_iff, not_not] at hrun

theorem within_reviews_collections (h : (fragment.collectionPlan.run config).value = .ok r) :
    fragment.LowersCollections ∧
        Container.reviews.Within (Container.tools.Within ToolsFrame) config r ∨
      ¬ fragment.LowersCollections ∧ r = config := by
  have hrun := Plan.run_eq_ok (Container.tools.Within ToolsFrame) h
    fun work hwork inner after hafter => by
      obtain ⟨collections, rfl⟩ := collectionPlan_eq_ok hwork
      exact within_tools_add hafter
  rwa [Ne, collectionPlan_eq_none_iff, not_not] at hrun

end

instance (fragment : Fragment) : Decidable fragment.LowersPaths :=
  inferInstanceAs (Decidable (_ ∧ _))

instance (fragment : Fragment) : Decidable fragment.LowersCollections :=
  inferInstanceAs (Decidable (_ = true))

def changedPlaces (fragment : Fragment) : List Container :=
  (if fragment.LowersPaths then [.pathInstructions] else []) ++
    if fragment.LowersCollections then [.tools] else []

/-- Within `reviews` only these places are changed, by the lowerings that run. -/
structure ReviewsFrame (fragment old new : Fragment) : Prop where
  changes : Changes (fragment.changedPlaces.map Container.key) old new
  pathInstructions : fragment.LowersPaths →
    ∃ items, new.get? Container.pathInstructions.key = some (.list items)
  tools : fragment.LowersCollections → Container.tools.Inside ToolsFrame old new

section

variable {fragment old mid new : Fragment}

theorem reviewsFrame_both (hp : fragment.LowersPaths) (hc : fragment.LowersCollections)
    (hold : PathsFrame old mid) (hnew : Container.tools.Within ToolsFrame mid new) :
    ReviewsFrame fragment old new where
  changes := by
    rw [changedPlaces, if_pos hp, if_pos hc]
    exact hold.changes.trans hnew.changes (by decide)
  pathInstructions _ := by
    rw [hnew.changes.get?_eq (by decide)]
    exact hold.list
  tools _ := hnew.inside.of_get?_eq (hold.changes.get?_eq (by decide))

theorem reviewsFrame_paths (hp : fragment.LowersPaths) (hc : ¬ fragment.LowersCollections)
    (h : PathsFrame old new) : ReviewsFrame fragment old new where
  changes := by
    rw [changedPlaces, if_pos hp, if_neg hc]
    exact h.changes
  pathInstructions _ := h.list
  tools h := absurd h hc

theorem reviewsFrame_collections (hp : ¬ fragment.LowersPaths) (hc : fragment.LowersCollections)
    (h : Container.tools.Within ToolsFrame old new) : ReviewsFrame fragment old new where
  changes := by
    rw [changedPlaces, if_neg hp, if_pos hc]
    exact h.changes
  pathInstructions h := absurd h hp
  tools _ := h.inside

end

/-- If a lowering runs, `reviews` is changed in the places of the lowerings, and else nothing is.
Either way the extensions go. -/
theorem expand_frame {fragment result : Fragment} (h : fragment.expand.value = .ok result) :
    (fragment.LowersPaths ∨ fragment.LowersCollections) ∧
        Container.reviews.Within (ReviewsFrame fragment)
          (fragment.besides (Extension.all.map Extension.key)) result ∨
      ¬ (fragment.LowersPaths ∨ fragment.LowersCollections) ∧
        result = fragment.besides (Extension.all.map Extension.key) := by
  rw [expand_eq_plans, Attempt.value_bind, withoutExtensions_eq_besides] at h
  obtain ⟨config, hpaths, hcollections⟩ := bind_eq_ok.mp h
  rcases within_reviews_paths hpaths with ⟨hp, hpaths⟩ | ⟨hp, rfl⟩ <;>
    rcases within_reviews_collections hcollections with ⟨hc, hcollections⟩ | ⟨hc, rfl⟩
  · exact .inl ⟨.inl hp, (hpaths.trans hcollections).mono fun old new ⟨mid, hold, hnew⟩ =>
      reviewsFrame_both hp hc hold hnew⟩
  · exact .inl ⟨.inl hp, hpaths.mono fun old new => reviewsFrame_paths hp hc⟩
  · exact .inl ⟨.inr hc, hcollections.mono fun old new => reviewsFrame_collections hp hc⟩
  · exact .inr ⟨not_or.mpr ⟨hp, hc⟩, rfl⟩

def spread : Fragment :=
  [("instruction_sets", .mapping []),
    ("notes", .mapping [("rule_collections", .null)]),
    ("reviews", .mapping [("path_instructions", .null), ("profile", .string "chill"),
      ("tools", .mapping [("ast-grep", .null), ("eslint", .bool true)])]),
    ("enhanced_path_instructions", .list []),
    ("rule_collections", .mapping [("core", .mapping [("packages", .list [.string "lints"])])]),
    ("version", .number (.integer 1))]

def spreadResult : Fragment :=
  [("notes", .mapping [("rule_collections", .null)]),
    ("reviews", .mapping [("path_instructions", .list []), ("profile", .string "chill"),
      ("tools", .mapping [("ast-grep", .mapping
          [("packages", .list [.string "lints"]), ("rule_dirs", .list [])]),
        ("eslint", .bool true)])]),
    ("version", .number (.integer 1))]

theorem spread_frame :
    spread.expand.value = .ok spreadResult ∧ spread.LowersPaths ∧ spread.LowersCollections ∧
      Container.reviews.Within (ReviewsFrame spread)
        (spread.besides (Extension.all.map Extension.key)) spreadResult := by
  have h : spread.expand.value = .ok spreadResult := rfl
  have hp : spread.LowersPaths := by decide
  refine ⟨h, hp, by decide, ?_⟩
  rcases expand_frame h with ⟨_, hwithin⟩ | ⟨hnone, _⟩
  · exact hwithin
  · exact absurd (.inl hp) hnone

end Fragment
end FlatConfig
