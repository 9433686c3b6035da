import FlatConfig.Proofs.Edit
import FlatConfig.Proofs.Lowering

/-!
Places that are null.

A stage that reads its field as unset when it is null forgives null there (`Expand.Forgives`), and
so does every stage that works around it. Both lowerings do in each place that they work in
(`Fragment.expand_place`).
-/

set_option autoImplicit false

namespace FlatConfig

namespace Expand

/-- With a key of the mapping at the end of a path null, the stage does as without this key. -/
def Forgives (path : List String) (key : String) (stage : Stage) : Prop :=
  ∀ m : Fragment, m.At (fun inner => inner.keys.Nodup) path →
    Alike Fragment.Rearranged (stage (m.edit (·.put key (some .null)) path)).value
      (stage (m.edit (·.put key none) path)).value

theorem field_put_null {field : Option Value → Except Error Value}
    (hnull : field (some .null) = field none) (m : Fragment) (key other : String) :
    field ((m.put key (some .null)).get? other) = field ((m.put key none).get? other) := by
  rw [Fragment.get?_put, Fragment.get?_put]
  by_cases h : key = other
  · rw [if_pos h, if_pos h, hnull]
  · rw [if_neg h, if_neg h]

theorem list_put_null (c : Container) (m : Fragment) (key : String) :
    c.list (m.put key (some .null)) = c.list (m.put key none) := by
  rw [Container.list, Container.list, Fragment.get?_put, Fragment.get?_put]
  by_cases h : key = c.key
  · rw [if_pos h, if_pos h]
    rfl
  · rw [if_neg h, if_neg h]

theorem mapping_adjust (c : Container) (m : Fragment) (f : Fragment → Fragment) :
    c.mapping (m.adjust c.key (Value.onMapping f)) =
      match m.get? c.key with
      | some (.mapping inner) => .ok (f inner)
      | _ => c.mapping m := by
  rw [Container.mapping, Container.mapping, Fragment.get?_adjust, if_pos rfl]
  cases m.get? c.key with
  | none => rfl
  | some v => cases v <;> rfl

theorem rearranged_put {m : Fragment} (hd : m.keys.Nodup) {key k l : String}
    (hkey : key = k ∨ key = l) (v w : Value) (old other : Option Value) :
    Fragment.Rearranged (((m.put key old).insert k v).insert l w)
      (((m.put key other).insert k v).insert l w) := by
  have hnodup (old : Option Value) :
      (Fragment.keys (((m.put key old).insert k v).insert l w)).Nodup :=
    Fragment.nodup_keys_insert
      (Fragment.nodup_keys_insert (Fragment.nodup_keys_put hd key old) k v) l w
  refine .of_get?_eq (hnodup old) (hnodup other) fun name => ?_
  simp only [Fragment.get?_insert, Fragment.get?_put]
  by_cases hl : l = name
  · rw [if_pos hl, if_pos hl]
  · by_cases hk : k = name
    · rw [if_neg hl, if_neg hl, if_pos hk, if_pos hk]
    · have hn : key ≠ name := by
        rcases hkey with rfl | rfl <;> assumption
      rw [if_neg hl, if_neg hl, if_neg hk, if_neg hk, if_neg hn, if_neg hn]

namespace Forgives

variable {k l key : String} {path : List String} {f g : Option Value → Except Error Value}
  {p q : Stage}

theorem of_writes (h : Writes key f p) (hnull : f (some .null) = f none) : Forgives [] key p := by
  intro m hd
  rw [Fragment.edit, Fragment.edit, h, h, field_put_null hnull]
  refine .bind_same _ fun v => .ok ?_
  rw [← Fragment.insert_insert _ key v v, ← Fragment.insert_insert (m.put key none) key v v]
  exact rearranged_put hd (.inl rfl) v v _ _

theorem bind_writes (hp : Writes k f p) (hq : Writes l g q) (hne : k ≠ l)
    (hf : f (some .null) = f none) (hg : g (some .null) = g none) (hkey : key = k ∨ key = l) :
    Forgives [] key (fun m => p m >>= q) := by
  intro m hd
  rw [Fragment.edit, Fragment.edit, hp.value_bind hq hne, hp.value_bind hq hne, field_put_null hf,
    field_put_null hg]
  exact .bind_same _ fun v => .bind_same _ fun w => .ok (rearranged_put hd hkey v w _ _)

theorem within (c : Container) (h : Forgives path key p) :
    Forgives (c.key :: path) key (c.within p) := by
  intro m hd
  rw [Fragment.edit, Fragment.edit, Container.value_within, Container.value_within, mapping_adjust,
    mapping_adjust]
  simp only [Fragment.insert_adjust]
  split
  · rename_i inner hinner
    rw [ok_bind, ok_bind]
    refine (h inner (hd inner hinner)).bind fun a b hab => .ok ?_
    exact .insert (.of_eq (by rw [Fragment.keys_insert, Fragment.keys_insert])) (fun _ _ => rfl) hab
  · exact .of_eq .refl rfl

theorem after_writes (hp : Writes l g p) (hne : k ≠ l) (h : Forgives (k :: path) key q) :
    Forgives (k :: path) key (fun m => p m >>= q) := by
  intro m hd
  have hget (F : Value → Value) : (m.adjust k F).get? l = m.get? l := by
    rw [Fragment.get?_adjust, if_neg hne]
  simp only [Fragment.edit, Attempt.value_bind, hp _, hget]
  cases g (m.get? l) with
  | error e => exact .error e
  | ok v =>
    simp only [ok_bind, Fragment.insert_adjust_of_ne m hne]
    apply h (m.insert l v)
    intro inner hinner
    rw [Fragment.get?_insert, if_neg (Ne.symm hne)] at hinner
    exact hd inner hinner

end Forgives

theorem forgives_takePackages (collections : Fragment) {key : String}
    (hkey : key = Container.packages.key ∨ key = Container.ruleDirs.key) :
    Forgives [] key (takePackages collections) := by
  intro m hd
  simp only [Fragment.edit, takePackages, Attempt.value_bind, Attempt.value_ofExcept,
    Attempt.value_pure, list_put_null]
  exact .bind_same _ fun packages => .bind_same _ fun ruleDirs => .bind_same _ fun added =>
    .ok (rearranged_put hd hkey _ _ _ _)

theorem rewrite_null (c : Container) (work : Stage) :
    c.rewrite work (some .null) = c.rewrite work none := by
  rw [Container.rewrite, Container.rewrite, Container.mapping, Container.mapping,
    Container.get?_optional, Container.get?_optional]
  rfl

def AddsPackages (q : Stage) : Prop :=
  (∃ collections, q = addPackages collections) ∨ ∃ e, q = fun _ => Attempt.fail e

namespace AddsPackages

variable {q : Stage}

theorem writes (h : AddsPackages q) :
    ∃ g, Writes Container.tools.key g q ∧ g (some .null) = g none := by
  rcases h with ⟨collections, rfl⟩ | ⟨e, rfl⟩
  · exact ⟨_, Container.writes_within Container.tools _, rewrite_null _ _⟩
  · exact ⟨fun _ => .error e, fun _ => rfl, rfl⟩

theorem forgives_astGrep (h : AddsPackages q) :
    Forgives [Container.tools.key] Container.astGrep.key q := by
  rcases h with ⟨collections, rfl⟩ | ⟨e, rfl⟩
  · exact .within _ (.of_writes (Container.writes_within Container.astGrep _) (rewrite_null _ _))
  · exact fun _ _ => .error e

theorem forgives_below (h : AddsPackages q) {key : String}
    (hkey : key = Container.packages.key ∨ key = Container.ruleDirs.key) :
    Forgives [Container.tools.key, Container.astGrep.key] key q := by
  rcases h with ⟨collections, rfl⟩ | ⟨e, rfl⟩
  · exact .within _ (.within _ (forgives_takePackages collections hkey))
  · exact fun _ _ => .error e

end AddsPackages

def Plan.stage (work : Except Error Stage) : Stage := fun reviews => do
  (← Attempt.ofExcept work) reviews

def Plan.both : Plan → Plan → Plan
  | none, second => second
  | some (.error e), _ => some (.error e)
  | some (.ok p), none => some (.ok p)
  | some (.ok p), some work => some (.ok fun reviews => p reviews >>= stage work)

theorem Plan.value_run_both (first second : Plan) (config : Fragment) :
    (first.run config >>= second.run).value = ((first.both second).run config).value := by
  match first, second with
  | none, _ => rfl
  | some (.error _), _ => rfl
  | some (.ok _), none => rw [run_none, bind_pure, both]
  | some (.ok p), some (.ok q) => exact Container.value_within_bind _ p q config
  | some (.ok p), some (.error e) =>
    rw [both, run_ok, run_ok, Attempt.value_bind, Container.value_within, Container.value_within]
    cases Container.reviews.mapping config with
    | error e => rfl
    | ok reviews =>
      rw [ok_bind, ok_bind, Attempt.value_bind]
      cases (p reviews).value <;> rfl

theorem Plan.both_eq_none_iff {first second : Plan} :
    first.both second = none ↔ first = none ∧ second = none := by
  match first, second with
  | none, _ => simp [both]
  | some (.error _), _ => simp [both]
  | some (.ok _), none => simp [both]
  | some (.ok _), some _ => simp [both]

theorem Forgives.run {plan : Plan} {path : List String} {key : String} (hplan : plan ≠ none)
    (h : ∀ work, plan = some (.ok work) → Forgives path key work) :
    Forgives (Container.reviews.key :: path) key plan.run := by
  match plan with
  | none => exact absurd rfl hplan
  | some (.error e) => exact fun _ _ => .error e
  | some (.ok work) => exact (h work rfl).within Container.reviews

theorem Forgives.run_reviews {plan : Plan} (hplan : plan ≠ none) :
    Forgives [] Container.reviews.key plan.run := by
  match plan with
  | none => exact absurd rfl hplan
  | some (.error e) => exact fun _ _ => .error e
  | some (.ok work) => exact .of_writes (Container.writes_within _ work) (rewrite_null _ work)

end Expand

def Container.holders : Container → List String
  | .reviews => []
  | .pathInstructions | .tools => [reviews.key]
  | .astGrep => [reviews.key, tools.key]
  | .packages | .ruleDirs => [reviews.key, tools.key, astGrep.key]

namespace Fragment

open Expand

def LowersPaths (fragment : Fragment) : Prop :=
  (fragment.extension? .instructionSets).isSome ∧ (fragment.extension? .pathInstructions).isSome

def LowersCollections (fragment : Fragment) : Prop :=
  (fragment.extension? .ruleCollections).isSome

/-- Some lowering that runs on the fragment works in this place. -/
def Reads (fragment : Fragment) : Container → Prop
  | .reviews => fragment.LowersPaths ∨ fragment.LowersCollections
  | .pathInstructions => fragment.LowersPaths
  | .tools | .astGrep | .packages | .ruleDirs => fragment.LowersCollections

theorem pathPlan_eq_none_iff {fragment : Fragment} :
    fragment.pathPlan = none ↔ ¬ fragment.LowersPaths := by
  rw [pathPlan, LowersPaths]
  cases fragment.extension? .instructionSets <;> cases fragment.extension? .pathInstructions <;>
    simp

theorem collectionPlan_eq_none_iff {fragment : Fragment} :
    fragment.collectionPlan = none ↔ ¬ fragment.LowersCollections := by
  rw [collectionPlan, LowersCollections]
  cases fragment.extension? .ruleCollections <;> simp

theorem addsPackages_of_collectionPlan {fragment : Fragment} {work : Except Error Stage}
    (h : fragment.collectionPlan = some work) : AddsPackages (Plan.stage work) := by
  match work with
  | .error e => exact .inr ⟨e, rfl⟩
  | .ok work =>
    obtain ⟨collections, rfl⟩ := collectionPlan_eq_ok h
    exact .inl ⟨collections, rfl⟩

theorem both_eq_ok {fragment : Fragment} {work : Stage}
    (h : fragment.pathPlan.both fragment.collectionPlan = some (.ok work)) :
    (fragment.pathPlan = none ∧ AddsPackages work) ∨
      (∃ sets entries, work = appendPathInstructions sets entries ∧
        fragment.collectionPlan = none) ∨
      ∃ sets entries q, AddsPackages q ∧
        work = fun reviews => appendPathInstructions sets entries reviews >>= q := by
  cases hpaths : fragment.pathPlan with
  | none =>
    rw [hpaths, Plan.both] at h
    exact .inl ⟨rfl, .inl (collectionPlan_eq_ok h)⟩
  | some first =>
    cases first with
    | error e => rw [hpaths, Plan.both] at h; cases h
    | ok p =>
      obtain ⟨sets, entries, rfl⟩ := pathPlan_eq_ok hpaths
      cases hcollections : fragment.collectionPlan with
      | none =>
        rw [hpaths, hcollections, Plan.both] at h
        obtain rfl := Except.ok.inj (Option.some.inj h)
        exact .inr (.inl ⟨sets, entries, rfl, rfl⟩)
      | some second =>
        rw [hpaths, hcollections, Plan.both] at h
        obtain rfl := Except.ok.inj (Option.some.inj h)
        exact .inr (.inr ⟨sets, entries, _, addsPackages_of_collectionPlan hcollections, rfl⟩)

theorem both_ne_none {fragment : Fragment} (h : fragment.LowersPaths ∨ fragment.LowersCollections) :
    fragment.pathPlan.both fragment.collectionPlan ≠ none := by
  rw [Ne, Plan.both_eq_none_iff, pathPlan_eq_none_iff, collectionPlan_eq_none_iff, ← not_or,
    not_not]
  exact h

theorem forgives_pathInstructions {fragment : Fragment} (h : fragment.LowersPaths) :
    Forgives Container.pathInstructions.holders Container.pathInstructions.key
      (fragment.pathPlan.both fragment.collectionPlan).run := by
  refine .run (both_ne_none (.inl h)) fun work hwork => ?_
  rcases both_eq_ok hwork with ⟨hnone, _⟩ | ⟨sets, entries, rfl, _⟩ | ⟨sets, entries, q, hq, rfl⟩
  · exact absurd h (pathPlan_eq_none_iff.mp hnone)
  · exact .of_writes (writes_appendPathInstructions sets entries) rfl
  · obtain ⟨g, hg, hnull⟩ := hq.writes
    exact .bind_writes (writes_appendPathInstructions sets entries) hg (by decide) rfl hnull
      (.inl rfl)

section

variable {fragment : Fragment} (h : fragment.LowersCollections)
include h

theorem forgives_tools :
    Forgives Container.tools.holders Container.tools.key
      (fragment.pathPlan.both fragment.collectionPlan).run := by
  refine .run (both_ne_none (.inr h)) fun work hwork => ?_
  rcases both_eq_ok hwork with ⟨_, hq⟩ | ⟨_, _, _, hnone⟩ | ⟨sets, entries, q, hq, rfl⟩
  · obtain ⟨g, hg, hnull⟩ := hq.writes
    exact .of_writes hg hnull
  · exact absurd h (collectionPlan_eq_none_iff.mp hnone)
  · obtain ⟨g, hg, hnull⟩ := hq.writes
    exact .bind_writes (writes_appendPathInstructions sets entries) hg (by decide) rfl hnull
      (.inr rfl)

theorem forgives_below_tools {path : List String} {key : String}
    (hadds : ∀ q, AddsPackages q → Forgives (Container.tools.key :: path) key q) :
    Forgives (Container.reviews.key :: Container.tools.key :: path) key
      (fragment.pathPlan.both fragment.collectionPlan).run := by
  refine .run (both_ne_none (.inr h)) fun work hwork => ?_
  rcases both_eq_ok hwork with ⟨_, hq⟩ | ⟨_, _, _, hnone⟩ | ⟨sets, entries, q, hq, rfl⟩
  · exact hadds work hq
  · exact absurd h (collectionPlan_eq_none_iff.mp hnone)
  · exact (hadds q hq).after_writes (writes_appendPathInstructions sets entries) (by decide)

end

theorem forgives_plans {fragment : Fragment} {c : Container} (h : fragment.Reads c) :
    Forgives c.holders c.key (fragment.pathPlan.both fragment.collectionPlan).run := by
  cases c with
  | reviews => exact .run_reviews (both_ne_none h)
  | pathInstructions => exact forgives_pathInstructions h
  | tools => exact forgives_tools h
  | astGrep => exact forgives_below_tools h fun q hq => hq.forgives_astGrep
  | packages => exact forgives_below_tools h fun q hq => hq.forgives_below (.inl rfl)
  | ruleDirs => exact forgives_below_tools h fun q hq => hq.forgives_below (.inr rfl)

theorem expand_value_eq (fragment : Fragment) :
    fragment.expand.value =
      ((fragment.pathPlan.both fragment.collectionPlan).run fragment.withoutExtensions).value := by
  rw [expand_eq_plans, Plan.value_run_both]

theorem withoutExtensions_adjust {key : String} (h : ∀ field : Extension, field.key ≠ key)
    (fragment : Fragment) (f : Value → Value) :
    (fragment.adjust key f).withoutExtensions = fragment.withoutExtensions.adjust key f := by
  simp only [withoutExtensions, Extension.all, List.foldl_cons, List.foldl_nil,
    erase_adjust_of_ne _ (Ne.symm (h _))]

theorem withoutExtensions_put {key : String} (h : ∀ field : Extension, field.key ≠ key)
    (fragment : Fragment) (new : Option Value) :
    (fragment.put key new).withoutExtensions = fragment.withoutExtensions.put key new := by
  simp only [withoutExtensions, Extension.all, List.foldl_cons, List.foldl_nil,
    erase_put_of_ne _ (Ne.symm (h _))]

theorem at_of_distinct {fragment : Fragment} (hd : (Value.mapping fragment).Distinct)
    (path : List String) : fragment.At (fun inner => inner.keys.Nodup) path := by
  induction path generalizing fragment with
  | nil => exact hd.1
  | cons key rest ih => exact fun inner hinner => ih (distinct_of_get? hd hinner)

section

variable (fragment : Fragment) (c : Container) (new : Option Value)

theorem withoutExtensions_edit_place :
    (fragment.edit (·.put c.key new) c.holders).withoutExtensions =
      fragment.withoutExtensions.edit (·.put c.key new) c.holders := by
  cases c with
  | reviews => exact withoutExtensions_put Extension.key_ne_reviews fragment new
  | _ => exact withoutExtensions_adjust Extension.key_ne_reviews fragment _

theorem extension?_edit_place (field : Extension) :
    (fragment.edit (·.put c.key new) c.holders).extension? field = fragment.extension? field := by
  have h := Ne.symm field.key_ne_reviews
  have hget : (fragment.edit (·.put c.key new) c.holders).get? field.key =
      fragment.get? field.key := by
    cases c with
    | reviews => exact (get?_put fragment _ new _).trans (if_neg h)
    | _ => exact (get?_adjust fragment _ _ _).trans (if_neg h)
  rw [extension?, extension?, hget]

end

theorem expand_place {fragment : Fragment} (hd : (Value.mapping fragment).Distinct) {c : Container}
    (h : fragment.Reads c) :
    Alike Rearranged (fragment.edit (·.put c.key (some .null)) c.holders).expand.value
      (fragment.edit (·.put c.key none) c.holders).expand.value := by
  have hvalue (new : Option Value) :
      (fragment.edit (·.put c.key new) c.holders).expand.value =
        ((fragment.pathPlan.both fragment.collectionPlan).run
          (fragment.withoutExtensions.edit (·.put c.key new) c.holders)).value := by
    rw [expand_value_eq, withoutExtensions_edit_place,
      pathPlan_congr (extension?_edit_place _ _ _ _) (extension?_edit_place _ _ _ _),
      collectionPlan_congr (extension?_edit_place _ _ _ _)]
  rw [hvalue, hvalue]
  apply forgives_plans h
  cases c with
  | reviews => exact nodup_keys_withoutExtensions hd.1
  | _ =>
    intro inner hinner
    rw [get?_withoutExtensions Extension.key_ne_reviews] at hinner
    exact at_of_distinct (distinct_of_get? hd hinner) _

end Fragment
end FlatConfig
