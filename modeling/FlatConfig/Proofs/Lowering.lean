import FlatConfig.Proofs.Expand
import FlatConfig.Proofs.Rearranged

/-!
The two lowerings do not see each other.

Each of them writes one field of `reviews`, with a value that depends on this field alone
(`Expand.Writes`). So they can be run one at a time and in either order, and both succeed together
exactly when each of them does (`Fragment.expand_separately`).
-/

set_option autoImplicit false

namespace FlatConfig

namespace Attempt

variable {α β : Type}

def Succeeds (x : Attempt α) : Prop := ∃ a, x.value = .ok a

theorem succeeds_pure (a : α) : Succeeds (pure a) := ⟨a, rfl⟩

theorem succeeds_bind_iff {x : Attempt α} {f : α → Attempt β} :
    (x >>= f).Succeeds ↔ ∃ a, x.value = .ok a ∧ (f a).Succeeds := by
  simp only [Succeeds, value_bind, bind_eq_ok]
  exact exists_comm.trans (by simp only [exists_and_left])

end Attempt

namespace Expand

abbrev Stage := Fragment → Attempt Fragment

/-- A stage that writes one field, with a value that depends on its old value alone. -/
def Writes (key : String) (field : Option Value → Except Error Value) (stage : Stage) : Prop :=
  ∀ m : Fragment, (stage m).value = field (m.get? key) >>= fun v => .ok (m.insert key v)

/-- The second stage finds what it would find without the first, and the other way round. -/
structure Independent (p q : Stage) : Prop where
  succeeds_iff : ∀ m, (p m >>= q).Succeeds ↔ (p m).Succeeds ∧ (q m).Succeeds
  swap : ∀ m result, (p m >>= q).value = .ok result →
    ∃ swapped, (q m >>= p).value = .ok swapped ∧ swapped.Rearranged result

end Expand

namespace Container

open Expand

theorem get?_optional (key : String) (old : Option Value) :
    Fragment.get? (Fragment.entry? key old) key = old := by
  cases old <;> simp [Fragment.entry?]

theorem mapping_congr {c : Container} {a b : Fragment} (h : a.get? c.key = b.get? c.key) :
    c.mapping a = c.mapping b := by
  rw [mapping, mapping, h]

theorem list_congr {c : Container} {a b : Fragment} (h : a.get? c.key = b.get? c.key) :
    c.list a = c.list b := by
  rw [list, list, h]

theorem mapping_eq_ok_iff {c : Container} {outer inner : Fragment} :
    c.mapping outer = .ok inner ↔
      Value.set? (outer.get? c.key) = none ∧ inner = [] ∨
        outer.get? c.key = some (.mapping inner) := by
  rw [mapping]
  cases outer.get? c.key with
  | none => simp [Value.set?, eq_comm]
  | some v => cases v <;> simp [Value.set?, eq_comm]

theorem list_eq_ok_iff {c : Container} {outer : Fragment} {items : List Value} :
    c.list outer = .ok items ↔
      Value.set? (outer.get? c.key) = none ∧ items = [] ∨
        outer.get? c.key = some (.list items) := by
  rw [list]
  cases outer.get? c.key with
  | none => simp [Value.set?, eq_comm]
  | some v => cases v <;> simp [Value.set?, eq_comm]

def rewrite (c : Container) (work : Stage) (old : Option Value) : Except Error Value :=
  c.mapping (Fragment.entry? c.key old) >>= fun inner =>
    (work inner).value >>= fun inner => .ok (.mapping inner)

theorem writes_within (c : Container) (work : Stage) :
    Writes c.key (c.rewrite work) (c.within work) := by
  intro m
  rw [value_within, rewrite, mapping_congr (get?_optional c.key (m.get? c.key))]
  cases c.mapping m with
  | error e => rfl
  | ok inner => cases h : (work inner).value <;> simp [h]

theorem succeeds_within_iff (c : Container) {work : Stage} {m : Fragment} :
    (c.within work m).Succeeds ↔ ∃ inner, c.mapping m = .ok inner ∧ (work inner).Succeeds := by
  simp only [within, Attempt.succeeds_bind_iff, Attempt.value_ofExcept, Attempt.succeeds_pure,
    and_true]
  rfl

theorem mapping_insert (c : Container) (m inner : Fragment) :
    c.mapping (m.insert c.key (.mapping inner)) = .ok inner := by
  simp [mapping, Fragment.get?_insert, Value.set?]

theorem value_within_bind (c : Container) (p q : Stage) (m : Fragment) :
    (c.within p m >>= c.within q).value = (c.within (fun inner => p inner >>= q) m).value := by
  rw [Attempt.value_bind, value_within, value_within]
  cases c.mapping m with
  | error e => rfl
  | ok inner =>
    simp only [ok_bind, Attempt.value_bind]
    cases (p inner).value with
    | error e => rfl
    | ok first =>
      simp only [ok_bind, value_within, mapping_insert, Fragment.insert_insert]

end Container

namespace Expand

theorem Writes.succeeds_iff {key : String} {field : Option Value → Except Error Value}
    {stage : Stage} (h : Writes key field stage) (m : Fragment) :
    (stage m).Succeeds ↔ ∃ v, field (m.get? key) = .ok v := by
  rw [Attempt.Succeeds, h]
  cases field (m.get? key) <;> simp

theorem Writes.value_bind {k l : String} {f g : Option Value → Except Error Value} {p q : Stage}
    (hp : Writes k f p) (hq : Writes l g q) (hne : k ≠ l) (m : Fragment) :
    (p m >>= q).value =
      f (m.get? k) >>= fun v => g (m.get? l) >>= fun w => .ok ((m.insert k v).insert l w) := by
  rw [Attempt.value_bind, hp]
  cases f (m.get? k) with
  | error e => rfl
  | ok v => rw [ok_bind, ok_bind, ok_bind, hq, Fragment.get?_insert, if_neg hne]

namespace Independent

variable {p q : Stage} {α : Type}

theorem of_writes {k l : String} {f g : Option Value → Except Error Value} (hp : Writes k f p)
    (hq : Writes l g q) (hne : k ≠ l) : Independent p q where
  succeeds_iff m := by
    rw [hp.succeeds_iff, hq.succeeds_iff, Attempt.Succeeds, hp.value_bind hq hne]
    cases f (m.get? k) <;> cases g (m.get? l) <;> simp
  swap m result h := by
    rw [hp.value_bind hq hne] at h
    obtain ⟨v, hv, h⟩ := bind_eq_ok.mp h
    obtain ⟨w, hw, h⟩ := bind_eq_ok.mp h
    obtain rfl := Except.ok.inj h
    refine ⟨(m.insert l w).insert k v, ?_, Fragment.Rearranged.insert_comm m hne.symm w v⟩
    rw [hq.value_bind hp hne.symm, hw, ok_bind, hv, ok_bind]

theorem within (c : Container) (h : Independent p q) :
    Independent (c.within p) (c.within q) where
  succeeds_iff m := by
    rw [Attempt.Succeeds, c.value_within_bind, ← Attempt.Succeeds, c.succeeds_within_iff,
      c.succeeds_within_iff, c.succeeds_within_iff]
    cases c.mapping m with
    | error e => simp
    | ok inner => simpa using h.succeeds_iff inner
  swap m result hresult := by
    rw [c.value_within_bind, c.value_within] at hresult
    obtain ⟨inner, hinner, hresult⟩ := bind_eq_ok.mp hresult
    obtain ⟨last, hlast, hresult⟩ := bind_eq_ok.mp hresult
    obtain rfl := Except.ok.inj hresult
    obtain ⟨swapped, hswapped, hrearranged⟩ := h.swap inner last hlast
    refine ⟨m.insert c.key (.mapping swapped), ?_, ?_⟩
    · rw [c.value_within_bind, c.value_within, hinner, ok_bind, hswapped, ok_bind]
    · exact .insert (.of_eq (by rw [Fragment.keys_insert, Fragment.keys_insert])) (fun _ _ => rfl)
        hrearranged

theorem pure_left : Independent pure q where
  succeeds_iff m := by simp [Attempt.succeeds_pure]
  swap m result h := ⟨result, by simpa using h, .refl _⟩

theorem pure_right : Independent p pure where
  succeeds_iff m := by simp [Attempt.succeeds_pure]
  swap m result h := ⟨result, by simpa using h, .refl _⟩

theorem of_fails_left (hp : ∀ m, ¬ (p m).Succeeds) : Independent p q := by
  have hfails : ∀ m, ¬ (p m >>= q).Succeeds := by
    intro m h
    obtain ⟨a, ha, _⟩ := Attempt.succeeds_bind_iff.mp h
    exact hp m ⟨a, ha⟩
  exact ⟨fun m => by simp [hfails, hp], fun m result h => absurd ⟨result, h⟩ (hfails m)⟩

theorem of_fails_right (hq : ∀ m, ¬ (q m).Succeeds) : Independent p q := by
  have hfails : ∀ m, ¬ (p m >>= q).Succeeds := by
    intro m h
    obtain ⟨a, _, ha⟩ := Attempt.succeeds_bind_iff.mp h
    exact hq a ha
  exact ⟨fun m => by simp [hfails, hq], fun m result h => absurd ⟨result, h⟩ (hfails m)⟩

end Independent

/-- What a lowering does within `reviews`. There may be nothing to do, and what there is to do may
not be readable. -/
abbrev Plan := Option (Except Error Stage)

def Plan.run (plan : Plan) : Stage := fun config =>
  match plan with
  | none => pure config
  | some work => do Container.reviews.within (← Attempt.ofExcept work) config

@[simp] theorem Plan.run_none : Plan.run none = pure := rfl

@[simp] theorem Plan.run_ok (work : Stage) :
    Plan.run (some (.ok work)) = Container.reviews.within work := rfl

theorem Plan.not_succeeds_run_error (e : Error) (config : Fragment) :
    ¬ (Plan.run (some (.error e)) config).Succeeds := by
  simp [run, Attempt.Succeeds]

theorem Independent.run {first second : Plan}
    (h : ∀ p q, first = some (.ok p) → second = some (.ok q) → Independent p q) :
    Independent first.run second.run := by
  match first, second with
  | none, _ => exact .pure_left
  | some (.error e), _ => exact .of_fails_left (Plan.not_succeeds_run_error e)
  | some (.ok _), none => exact .pure_right
  | some (.ok _), some (.error e) => exact .of_fails_right (Plan.not_succeeds_run_error e)
  | some (.ok p), some (.ok q) => exact (h p q rfl rfl).within Container.reviews

def appendPathInstructions (sets : Fragment) (entries : List Value) : Stage := fun reviews => do
  let existing ← Attempt.ofExcept (Container.pathInstructions.list reviews)
  let added ← ExceptT.lift (lowerEntries sets entries)
  return reviews.insert Container.pathInstructions.key (.list (existing ++ added))

def takePackages (collections : Fragment) : Stage := fun astGrep => do
  let packages ← Attempt.ofExcept (Container.packages.list astGrep)
  let ruleDirs ← Attempt.ofExcept (Container.ruleDirs.list astGrep)
  let added ← collectPackages collections
  return (astGrep.insert Container.packages.key (.list (dedup (packages ++ added)))).insert
    Container.ruleDirs.key (.list (dedup ruleDirs))

def addPackages (collections : Fragment) : Stage :=
  Container.tools.within (Container.astGrep.within (takePackages collections))

theorem writes_appendPathInstructions (sets : Fragment) (entries : List Value) :
    Writes Container.pathInstructions.key
      (fun old =>
        Container.pathInstructions.list (Fragment.entry? Container.pathInstructions.key old) >>=
          fun existing => .ok (.list (existing ++ (lowerEntries sets entries).value)))
      (appendPathInstructions sets entries) := by
  intro m
  have hlist := Container.list_congr (Container.get?_optional Container.pathInstructions.key
    (m.get? Container.pathInstructions.key))
  simp only [appendPathInstructions, Attempt.value_bind, Attempt.value_ofExcept, hlist]
  cases Container.pathInstructions.list m <;> rfl

theorem independent_append_add (sets : Fragment) (entries : List Value) (collections : Fragment) :
    Independent (appendPathInstructions sets entries) (addPackages collections) :=
  .of_writes (writes_appendPathInstructions sets entries)
    (Container.writes_within Container.tools _) (by decide)

end Expand

theorem Extension.key_inj {a b : Extension} : a.key = b.key ↔ a = b := by
  cases a <;> cases b <;> decide

theorem Extension.key_ne_reviews (field : Extension) : field.key ≠ Container.reviews.key := by
  cases field <;> decide

namespace Fragment

open Expand

def pathPlan (fragment : Fragment) : Plan :=
  match fragment.extension? .instructionSets, fragment.extension? .pathInstructions with
  | some sets, some entries => some do
    let sets ← decodeMapping .instructionSets sets
    let entries ← decodeList .pathInstructions entries
    return appendPathInstructions sets entries
  | _, _ => none

def collectionPlan (fragment : Fragment) : Plan :=
  (fragment.extension? .ruleCollections).map fun collections =>
    addPackages <$> decodeMapping .ruleCollections collections

theorem lowerPaths_eq_run (fragment : Fragment) : fragment.lowerPaths = fragment.pathPlan.run := by
  funext config
  unfold lowerPaths pathPlan
  cases fragment.extension? .instructionSets with
  | none => rfl
  | some sets =>
    cases fragment.extension? .pathInstructions with
    | none => rfl
    | some entries =>
      dsimp only
      cases decodeMapping .instructionSets sets with
      | error e => rfl
      | ok sets => cases decodeList .pathInstructions entries <;> rfl

theorem lowerCollections_eq_run (fragment : Fragment) :
    fragment.lowerCollections = fragment.collectionPlan.run := by
  funext config
  unfold lowerCollections collectionPlan
  cases fragment.extension? .ruleCollections with
  | none => rfl
  | some collections =>
    simp only [Option.map_some]
    cases decodeMapping .ruleCollections collections <;> rfl

theorem expand_eq_plans (fragment : Fragment) :
    fragment.expand =
      fragment.pathPlan.run fragment.withoutExtensions >>= fragment.collectionPlan.run := by
  rw [expand_eq, lowerPaths_eq_run, lowerCollections_eq_run]

theorem pathPlan_eq_ok {fragment : Fragment} {work : Stage}
    (h : fragment.pathPlan = some (.ok work)) :
    ∃ sets entries, work = appendPathInstructions sets entries := by
  unfold pathPlan at h
  split at h
  · obtain ⟨sets, _, h⟩ := bind_eq_ok.mp (Option.some.inj h)
    obtain ⟨entries, _, h⟩ := bind_eq_ok.mp h
    exact ⟨sets, entries, (Except.ok.inj h).symm⟩
  · cases h

theorem collectionPlan_eq_ok {fragment : Fragment} {work : Stage}
    (h : fragment.collectionPlan = some (.ok work)) :
    ∃ collections, work = addPackages collections := by
  obtain ⟨v, _, h⟩ := Option.map_eq_some_iff.mp h
  cases hv : decodeMapping .ruleCollections v with
  | error e => simp [hv] at h
  | ok collections =>
    rw [hv, map_ok] at h
    exact ⟨collections, (Except.ok.inj h).symm⟩

theorem independent_plans (fragment : Fragment) :
    Independent fragment.pathPlan.run fragment.collectionPlan.run := by
  apply Independent.run
  intro p q hp hq
  obtain ⟨sets, entries, rfl⟩ := pathPlan_eq_ok hp
  obtain ⟨collections, rfl⟩ := collectionPlan_eq_ok hq
  exact independent_append_add sets entries collections

def without (fields : List Extension) (fragment : Fragment) : Fragment :=
  fields.foldl (fun f field => f.erase field.key) fragment

def restore (source : Fragment) (fields : List Extension) (fragment : Fragment) : Fragment :=
  fields.foldl
    (fun f field =>
      match source.get? field.key with
      | some v => f.insert field.key v
      | none => f)
    fragment

theorem without_eq_filter (fields : List Extension) (fragment : Fragment) :
    fragment.without fields =
      fragment.filter fun e => fields.all fun field => e.1 != field.key := by
  induction fields generalizing fragment with
  | nil => simp [without]
  | cons field rest ih =>
    rw [without, List.foldl_cons, ← without, ih, erase, List.filter_filter]
    simp [Bool.and_comm]

theorem withoutExtensions_eq_filter (fragment : Fragment) :
    fragment.withoutExtensions =
      fragment.filter fun e => Extension.all.all fun field => e.1 != field.key :=
  without_eq_filter Extension.all fragment

theorem withoutExtensions_without (fields : List Extension) (fragment : Fragment) :
    (without fields fragment).withoutExtensions = fragment.withoutExtensions := by
  rw [withoutExtensions_eq_filter, withoutExtensions_eq_filter, without_eq_filter,
    List.filter_filter]
  apply List.filter_congr
  intro e _
  have hall : ∀ field : Extension, field ∈ Extension.all := by intro field; cases field <;> decide
  by_cases h : ∀ field : Extension, e.1 ≠ field.key <;> simp_all

theorem filter_insert {p : String × Value → Bool} {key : String} (hp : ∀ v, p (key, v) = false)
    (fragment : Fragment) (v : Value) : (fragment.insert key v).filter p = fragment.filter p := by
  induction fragment with
  | nil => simp [insert, update, hp]
  | cons e rest ih =>
    obtain ⟨k, w⟩ := e
    simp only [insert] at ih
    by_cases h : k = key
    · simp [insert, update, h, hp]
    · simp [insert, update, h, List.filter_cons, ih]

theorem withoutExtensions_insert (fragment : Fragment) (field : Extension) (v : Value) :
    (fragment.insert field.key v).withoutExtensions = fragment.withoutExtensions := by
  rw [withoutExtensions_eq_filter, withoutExtensions_eq_filter]
  apply filter_insert
  intro w
  cases field <;> rfl

theorem withoutExtensions_restore (source : Fragment) (fields : List Extension)
    (fragment : Fragment) :
    (restore source fields fragment).withoutExtensions = fragment.withoutExtensions := by
  induction fields generalizing fragment with
  | nil => rfl
  | cons field rest ih =>
    rw [restore, List.foldl_cons, ← restore, ih]
    cases source.get? field.key with
    | none => rfl
    | some v => exact withoutExtensions_insert fragment field v

theorem extension?_without (fields : List Extension) (fragment : Fragment) (field : Extension) :
    (without fields fragment).extension? field =
      if field ∈ fields then none else fragment.extension? field := by
  induction fields generalizing fragment with
  | nil => simp [without]
  | cons first rest ih =>
    rw [without, List.foldl_cons, ← without, ih, extension?, extension?, get?_erase]
    by_cases h : first = field
    · simp [h, Value.set?]
    · simp [Extension.key_inj, h, Ne.symm h]

theorem get?_restore (source : Fragment) (fields : List Extension) (fragment : Fragment)
    (field : Extension) :
    get? (restore source fields fragment) field.key =
      if field ∈ fields then (source.get? field.key).or (fragment.get? field.key)
      else fragment.get? field.key := by
  induction fields generalizing fragment with
  | nil => simp [restore]
  | cons first rest ih =>
    rw [restore, List.foldl_cons, ← restore, ih]
    by_cases h : first = field
    · subst first
      cases hs : source.get? field.key <;> simp [get?_insert]
    · cases source.get? first.key <;> simp [get?_insert, Extension.key_inj, h, Ne.symm h]

theorem extension?_restore {fragment : Fragment}
    (h : ∀ field : Extension, field.key ∉ keys fragment) (source : Fragment)
    (fields : List Extension) (field : Extension) :
    (restore source fields fragment).extension? field =
      if field ∈ fields then source.extension? field else none := by
  rw [extension?, get?_restore, get?_eq_none_iff.mpr (h field), Option.or_none]
  by_cases hm : field ∈ fields
  · simp [hm, extension?]
  · simp [hm, Value.set?]

theorem not_mem_keys_expand {fragment result : Fragment} (h : fragment.expand.value = .ok result)
    (field : Extension) : field.key ∉ keys result := by
  have hlowered := not_mem_keys_withoutExtensions fragment field
  rcases expand_eq_ok h with rfl | ⟨reviews, rfl⟩
  · exact hlowered
  · rw [← get?_eq_none_iff, get?_insert, if_neg (Ne.symm field.key_ne_reviews), get?_eq_none_iff]
    exact hlowered

theorem pathPlan_congr {a b : Fragment}
    (hs : a.extension? .instructionSets = b.extension? .instructionSets)
    (he : a.extension? .pathInstructions = b.extension? .pathInstructions) :
    a.pathPlan = b.pathPlan := by
  rw [pathPlan, pathPlan, hs, he]

theorem collectionPlan_congr {a b : Fragment}
    (h : a.extension? .ruleCollections = b.extension? .ruleCollections) :
    a.collectionPlan = b.collectionPlan := by
  rw [collectionPlan, collectionPlan, h]

theorem expand_without_collections (fragment : Fragment) :
    (fragment.without [.ruleCollections]).expand =
      fragment.pathPlan.run fragment.withoutExtensions := by
  have hpaths : (fragment.without [.ruleCollections]).pathPlan = fragment.pathPlan :=
    pathPlan_congr (by simp [extension?_without]) (by simp [extension?_without])
  have hcollections : (fragment.without [.ruleCollections]).collectionPlan = none := by
    simp [collectionPlan, extension?_without]
  rw [expand_eq_plans, withoutExtensions_without, hpaths, hcollections, Plan.run_none, bind_pure]

theorem expand_without_paths (fragment : Fragment) :
    (fragment.without [.instructionSets, .pathInstructions]).expand =
      fragment.collectionPlan.run fragment.withoutExtensions := by
  have hpaths : (fragment.without [.instructionSets, .pathInstructions]).pathPlan = none := by
    simp [pathPlan, extension?_without]
  have hcollections : (fragment.without [.instructionSets, .pathInstructions]).collectionPlan =
      fragment.collectionPlan := collectionPlan_congr (by simp [extension?_without])
  rw [expand_eq_plans, withoutExtensions_without, hpaths, hcollections, Plan.run_none, pure_bind]

section

variable {lowered : Fragment} (h : ∀ field : Extension, field.key ∉ keys lowered)
include h

theorem expand_restore_collections (fragment : Fragment) :
    (restore fragment [.ruleCollections] lowered).expand = fragment.collectionPlan.run lowered := by
  have hpaths : (restore fragment [.ruleCollections] lowered).pathPlan = none := by
    simp [pathPlan, extension?_restore h]
  have hcollections : (restore fragment [.ruleCollections] lowered).collectionPlan =
      fragment.collectionPlan := collectionPlan_congr (by simp [extension?_restore h])
  rw [expand_eq_plans, withoutExtensions_restore, withoutExtensions_eq_self h, hpaths,
    hcollections, Plan.run_none, pure_bind]

theorem expand_restore_paths (fragment : Fragment) :
    (restore fragment [.instructionSets, .pathInstructions] lowered).expand =
      fragment.pathPlan.run lowered := by
  have hpaths : (restore fragment [.instructionSets, .pathInstructions] lowered).pathPlan =
      fragment.pathPlan :=
    pathPlan_congr (by simp [extension?_restore h]) (by simp [extension?_restore h])
  have hcollections :
      (restore fragment [.instructionSets, .pathInstructions] lowered).collectionPlan = none := by
    simp [collectionPlan, extension?_restore h]
  rw [expand_eq_plans, withoutExtensions_restore, withoutExtensions_eq_self h, hpaths,
    hcollections, Plan.run_none, bind_pure]

end

/-- The two lowerings succeed together when each of them does, and they can be run one at a time in
either order. -/
theorem expand_separately (fragment : Fragment) :
    (fragment.expand.Succeeds ↔
      (fragment.without [.ruleCollections]).expand.Succeeds ∧
        (fragment.without [.instructionSets, .pathInstructions]).expand.Succeeds) ∧
    ∀ result, fragment.expand.value = .ok result →
      (∃ lowered, (fragment.without [.ruleCollections]).expand.value = .ok lowered ∧
        (restore fragment [.ruleCollections] lowered).expand.value = .ok result) ∧
      ∃ lowered again,
        (fragment.without [.instructionSets, .pathInstructions]).expand.value = .ok lowered ∧
        (restore fragment [.instructionSets, .pathInstructions] lowered).expand.value = .ok again ∧
        again.Rearranged result := by
  have hindependent := fragment.independent_plans
  constructor
  · rw [expand_eq_plans, expand_without_collections, expand_without_paths]
    exact hindependent.succeeds_iff fragment.withoutExtensions
  intro result h
  rw [expand_eq_plans] at h
  constructor
  · rw [Attempt.value_bind] at h
    obtain ⟨lowered, hlowered, h⟩ := bind_eq_ok.mp h
    rw [← expand_without_collections] at hlowered
    refine ⟨lowered, hlowered, ?_⟩
    rw [expand_restore_collections (not_mem_keys_expand hlowered), h]
  · obtain ⟨again, hagain, hrearranged⟩ := hindependent.swap _ result h
    rw [Attempt.value_bind] at hagain
    obtain ⟨lowered, hlowered, hagain⟩ := bind_eq_ok.mp hagain
    rw [← expand_without_paths] at hlowered
    refine ⟨lowered, again, hlowered, ?_, hrearranged⟩
    rw [expand_restore_paths (not_mem_keys_expand hlowered), hagain]

def twofold : Fragment :=
  [("instruction_sets", .mapping [("style", .mapping [("instructions", .string "Be kind")])]),
    ("reviews", .null),
    ("rule_collections", .mapping [("core", .mapping [("packages", .list [.string "lints"])])]),
    ("enhanced_path_instructions", .list
      [.mapping [("path", .string "docs"), ("instructions", .mapping [("use", .string "style")])]])]

def docsInstructions : String × Value :=
  ("path_instructions", .list [lowered "docs" "Be kind"])

def lintTools : String × Value :=
  ("tools", .mapping
    [("ast-grep", .mapping [("packages", .list [.string "lints"]), ("rule_dirs", .list [])])])

theorem expand_twofold_separately :
    twofold.expand.value = .ok [("reviews", .mapping [docsInstructions, lintTools])] ∧
      ∃ lowered again,
        (twofold.without [.instructionSets, .pathInstructions]).expand.value = .ok lowered ∧
        (restore twofold [.instructionSets, .pathInstructions] lowered).expand.value = .ok again ∧
        again.Rearranged [("reviews", .mapping [docsInstructions, lintTools])] ∧
        again = [("reviews", .mapping [lintTools, docsInstructions])] := by
  have hexpand : twofold.expand.value =
      .ok [("reviews", .mapping [docsInstructions, lintTools])] := rfl
  obtain ⟨lowered, again, hlowered, hagain, hrearranged⟩ :=
    ((expand_separately twofold).2 _ hexpand).2
  refine ⟨hexpand, lowered, again, hlowered, hagain, hrearranged, ?_⟩
  have htools : lowered = [("reviews", .mapping [lintTools])] :=
    Except.ok.inj (hlowered.symm.trans rfl)
  subst htools
  exact Except.ok.inj (hagain.symm.trans rfl)

end Fragment
end FlatConfig
