import FlatConfig.Proofs.Checks
import FlatConfig.Proofs.Deduplication

set_option autoImplicit false

namespace FlatConfig

namespace Expand

/-- The packages of all collections, one collection after the other. Each can be read. -/
inductive HasPackages : Fragment → List String → Prop where
  | nil : HasPackages [] []
  | cons {name : String} {v : Value} {collection : RuleCollection} {rest : Fragment}
      {more : List String} (hv : RuleCollection.decode v = .ok collection)
      (h : HasPackages rest more) :
      HasPackages ((name, v) :: rest) (collection.packages.getD [] ++ more)

theorem value_collectPackages_eq_ok_iff {collections : Fragment} {added : List Value} :
    (collectPackages collections).value = .ok added ↔
      ∃ names, HasPackages collections names ∧ added = names.map .string := by
  constructor
  · intro h
    induction collections generalizing added with
    | nil => exact ⟨[], .nil, (Except.ok.inj h).symm⟩
    | cons e rest ih =>
      obtain ⟨name, v⟩ := e
      rw [value_collectPackages_cons] at h
      obtain ⟨collection, hv, h⟩ := bind_eq_ok.mp h
      obtain ⟨more, hmore, h⟩ := bind_eq_ok.mp h
      obtain ⟨names, hnames, rfl⟩ := ih hmore
      refine ⟨_, .cons (mapError_eq_ok.mp hv) hnames, ?_⟩
      rw [List.map_append, Except.ok.inj h]
  · rintro ⟨names, hnames, rfl⟩
    induction hnames with
    | nil => rfl
    | cons hv _ ih =>
      rw [value_collectPackages_cons, hv, ih, List.map_append]
      rfl

theorem HasPackages.perm {a b : Fragment} {names : List String} (hab : a.Perm b)
    (ha : HasPackages a names) : ∃ others, HasPackages b others ∧ names.Perm others := by
  induction hab generalizing names with
  | nil => exact ⟨names, ha, .refl _⟩
  | cons e _ ih =>
    cases ha with
    | cons hv hrest =>
      obtain ⟨others, hothers, hperm⟩ := ih hrest
      exact ⟨_, .cons hv hothers, hperm.append_left _⟩
  | swap e f rest =>
    cases ha with
    | cons hf hrest =>
      cases hrest with
      | cons he hrest =>
        refine ⟨_, .cons he (.cons hf hrest), ?_⟩
        rw [← List.append_assoc, ← List.append_assoc]
        exact List.perm_append_comm.append_right _
  | trans _ _ ihab ihbc =>
    obtain ⟨mid, hmid, hperm⟩ := ihab ha
    obtain ⟨others, hothers, hperm'⟩ := ihbc hmid
    exact ⟨others, hothers, hperm.trans hperm'⟩

def withLists (astGrep : Fragment) (packages ruleDirs : List Value) : Fragment :=
  (astGrep.insert Container.packages.key (.list packages)).insert Container.ruleDirs.key
    (.list ruleDirs)

section

variable (astGrep : Fragment) (packages ruleDirs : List Value)

theorem get?_packages_withLists :
    (withLists astGrep packages ruleDirs).get? Container.packages.key = some (.list packages) := by
  rw [withLists, Fragment.get?_insert, if_neg (by decide), Fragment.get?_insert_self]

theorem get?_ruleDirs_withLists :
    (withLists astGrep packages ruleDirs).get? Container.ruleDirs.key = some (.list ruleDirs) :=
  Fragment.get?_insert_self _ _ _

theorem withLists_withLists :
    withLists (withLists astGrep packages ruleDirs) packages ruleDirs =
      withLists astGrep packages ruleDirs := by
  rw [withLists, Fragment.insert_of_get? (get?_packages_withLists astGrep packages ruleDirs),
    Fragment.insert_of_get? (get?_ruleDirs_withLists astGrep packages ruleDirs)]

end

/-- What a configuration has for the tool, from `reviews` down to its two lists. -/
structure Tool (config : Fragment) where
  reviews : Fragment
  tools : Fragment
  astGrep : Fragment
  packages : List Value
  ruleDirs : List Value
  reviews_eq : Container.reviews.mapping config = .ok reviews
  tools_eq : Container.tools.mapping reviews = .ok tools
  astGrep_eq : Container.astGrep.mapping tools = .ok astGrep
  packages_eq : Container.packages.list astGrep = .ok packages
  ruleDirs_eq : Container.ruleDirs.list astGrep = .ok ruleDirs

namespace Tool

variable {config : Fragment}

def write (tool : Tool config) (packages ruleDirs : List Value) : Fragment :=
  config.insert Container.reviews.key <| .mapping <|
    tool.reviews.insert Container.tools.key <| .mapping <|
      tool.tools.insert Container.astGrep.key <| .mapping <|
        withLists tool.astGrep packages ruleDirs

theorem at?_packages (tool : Tool config) (packages ruleDirs : List Value) :
    (Value.mapping (tool.write packages ruleDirs)).at?
      ["reviews", "tools", "ast-grep", "packages"] = some (.list packages) := by
  have hlist := get?_packages_withLists tool.astGrep packages ruleDirs
  simpa [write, Value.at?, Value.get?, Fragment.get?_insert, Container.key] using hlist

theorem at?_ruleDirs (tool : Tool config) (packages ruleDirs : List Value) :
    (Value.mapping (tool.write packages ruleDirs)).at?
      ["reviews", "tools", "ast-grep", "rule_dirs"] = some (.list ruleDirs) := by
  have hlist := get?_ruleDirs_withLists tool.astGrep packages ruleDirs
  simpa [write, Value.at?, Value.get?, Fragment.get?_insert, Container.key] using hlist

end Tool

theorem value_takePackages_eq_ok_iff {collections m r : Fragment} :
    (takePackages collections m).value = .ok r ↔
      ∃ packages ruleDirs names, Container.packages.list m = .ok packages ∧
        Container.ruleDirs.list m = .ok ruleDirs ∧ HasPackages collections names ∧
        r = withLists m (dedup (packages ++ names.map .string)) (dedup ruleDirs) := by
  simp only [takePackages, Attempt.value_bind, Attempt.value_ofExcept, Attempt.value_pure,
    bind_eq_ok, value_collectPackages_eq_ok_iff]
  constructor
  · rintro ⟨packages, hpackages, ruleDirs, hruleDirs, added, ⟨names, hnames, rfl⟩, h⟩
    exact ⟨packages, ruleDirs, names, hpackages, hruleDirs, hnames, (Except.ok.inj h).symm⟩
  · rintro ⟨packages, ruleDirs, names, hpackages, hruleDirs, hnames, rfl⟩
    exact ⟨packages, hpackages, ruleDirs, hruleDirs, _, ⟨names, hnames, rfl⟩, rfl⟩

/-- Lowering writes the lists of the tool, and of the collections only the packages matter. -/
theorem value_within_addPackages_eq_ok_iff {collections config r : Fragment} :
    (Container.reviews.within (addPackages collections) config).value = .ok r ↔
      ∃ (tool : Tool config) (names : List String), HasPackages collections names ∧
        r = tool.write (dedup (tool.packages ++ names.map .string)) (dedup tool.ruleDirs) := by
  simp only [addPackages, Container.within_eq_ok_iff, value_takePackages_eq_ok_iff]
  constructor
  · rintro ⟨reviews, _, hreviews, ⟨tools, _, htools, ⟨astGrep, _, hastGrep,
      ⟨packages, ruleDirs, names, hpackages, hruleDirs, hnames, rfl⟩, rfl⟩, rfl⟩, rfl⟩
    exact ⟨⟨reviews, tools, astGrep, packages, ruleDirs, hreviews, htools, hastGrep, hpackages,
      hruleDirs⟩, names, hnames, rfl⟩
  · rintro ⟨tool, names, hnames, rfl⟩
    exact ⟨_, _, tool.reviews_eq, ⟨_, _, tool.tools_eq, ⟨_, _, tool.astGrep_eq,
      ⟨_, _, names, tool.packages_eq, tool.ruleDirs_eq, hnames, rfl⟩, rfl⟩, rfl⟩, rfl⟩

def Idempotent (stage : Stage) : Prop :=
  ∀ m r : Fragment, (stage m).value = .ok r → (stage r).value = .ok r

theorem Idempotent.within (c : Container) {work : Stage} (h : Idempotent work) :
    Idempotent (c.within work) := by
  intro m r hr
  obtain ⟨inner, after, -, hafter, rfl⟩ := Container.within_eq_ok hr
  rw [Container.value_within, c.mapping_insert, ok_bind, h inner after hafter, ok_bind,
    Fragment.insert_insert]

theorem list_of_get? {c : Container} {m : Fragment} {items : List Value}
    (h : m.get? c.key = some (.list items)) : c.list m = .ok items :=
  Container.list_eq_ok_iff.mpr (.inr h)

theorem idempotent_takePackages (collections : Fragment) :
    Idempotent (takePackages collections) := by
  intro m r h
  obtain ⟨packages, ruleDirs, names, -, -, hnames, rfl⟩ := value_takePackages_eq_ok_iff.mp h
  have htexts : ∀ v ∈ names.map Value.string, v.same v = true := by simp [Value.same]
  have hdirs : dedup (dedup ruleDirs) = dedup ruleDirs := dedup_of_pairwise (pairwise_dedup _)
  refine value_takePackages_eq_ok_iff.mpr ⟨_, _, names,
    list_of_get? (get?_packages_withLists _ _ _),
    list_of_get? (get?_ruleDirs_withLists _ _ _), hnames, ?_⟩
  rw [dedup_absorbs htexts, hdirs, withLists_withLists]

theorem idempotent_addPackages (collections : Fragment) : Idempotent (addPackages collections) :=
  .within _ (.within _ (idempotent_takePackages collections))

theorem Idempotent.run {plan : Plan} (h : ∀ work, plan = some (.ok work) → Idempotent work) :
    Idempotent plan.run := by
  match plan with
  | none => exact fun _ _ _ => rfl
  | some (.error e) => exact fun m r hr => absurd ⟨r, hr⟩ (Plan.not_succeeds_run_error e m)
  | some (.ok work) => exact (h work rfl).within Container.reviews

end Expand

namespace Value

/-- The list at the end of a path of keys. Where nothing is set it is empty. -/
inductive HasList (v : Value) (path : List String) : List Value → Prop where
  | unset (h : set? (v.at? path) = none) : HasList v path []
  | list {items : List Value} (h : v.at? path = some (.list items)) : HasList v path items

theorem distinct_of_at? {v w : Value} {path : List String} (hd : v.Distinct)
    (h : v.at? path = some w) : w.Distinct := by
  induction path generalizing v with
  | nil =>
    obtain rfl := Option.some.inj h
    exact hd
  | cons key path ih =>
    obtain ⟨inner, hinner, hw⟩ := Option.bind_eq_some_iff.mp h
    cases v with
    | mapping entries => exact ih (Fragment.distinct_of_get? hd hinner) hw
    | _ => cases hinner

theorem HasList.distinct {v : Value} {path : List String} {items : List Value} (hd : v.Distinct)
    (h : v.HasList path items) : ∀ item ∈ items, item.Distinct := by
  cases h with
  | unset _ => simp
  | list h => exact distinctItems_iff.mp (distinct_of_at? hd h)

end Value

namespace Fragment

open Expand

theorem Shows.hasList {fragment outer : Fragment} {c : Container} {items : List Value}
    (h : fragment.Shows c outer) (hitems : c.list outer = .ok items) :
    (Value.mapping fragment).HasList (c.holders ++ [c.key]) items := by
  rw [Shows, place?] at h
  rcases Container.list_eq_ok_iff.mp hitems with ⟨hunset, rfl⟩ | hset
  · exact .unset (h.trans hunset)
  · rw [hset] at h
    exact .list (eq_of_set?_eq_some h)

section

variable {fragment config : Fragment}
  (h : (fragment.pathPlan.run fragment.withoutExtensions).value = .ok config)
include h

theorem hasList_tool (tool : Tool config) :
    (Value.mapping fragment).HasList ["reviews", "tools", "ast-grep", "packages"] tool.packages ∧
      (Value.mapping fragment).HasList ["reviews", "tools", "ast-grep", "rule_dirs"]
        tool.ruleDirs := by
  rw [← lowerPaths_eq_run] at h
  have htools := (shows_lowerPaths h).2 tool.reviews tool.reviews_eq
  have hastGrep := htools.below tool.tools_eq (d := .astGrep) rfl
  have hpackages := hastGrep.below tool.astGrep_eq (d := .packages) rfl
  have hruleDirs := hastGrep.below tool.astGrep_eq (d := .ruleDirs) rfl
  exact ⟨hpackages.hasList tool.packages_eq, hruleDirs.hasList tool.ruleDirs_eq⟩

theorem value_expand_insert_collections {collections : Fragment} {names : List String}
    (tool : Tool config) (hnames : HasPackages collections names) :
    (fragment.insert "rule_collections" (.mapping collections)).expand.value =
      .ok (tool.write (dedup (tool.packages ++ names.map .string)) (dedup tool.ruleDirs)) := by
  have hexpand := expand_insert_collections_eq fragment collections
  rw [Extension.key] at hexpand
  rw [hexpand, Attempt.value_bind, h, ok_bind]
  exact value_within_addPackages_eq_ok_iff.mpr ⟨tool, names, hnames, rfl⟩

end

theorem run_collectionPlan_eq_ok {fragment config result : Fragment} {v : Value}
    (hv : fragment.extension? .ruleCollections = some v)
    (h : (fragment.collectionPlan.run config).value = .ok result) :
    ∃ (collections : Fragment) (tool : Tool config) (names : List String),
      v = .mapping collections ∧ HasPackages collections names ∧
      result = tool.write (dedup (tool.packages ++ names.map .string)) (dedup tool.ruleDirs) := by
  rw [collectionPlan, hv] at h
  cases v with
  | mapping collections =>
    obtain ⟨tool, names, hnames, hresult⟩ := value_within_addPackages_eq_ok_iff.mp h
    exact ⟨collections, tool, names, rfl, hnames, hresult⟩
  | _ => cases h

/-- The packages of the collections join those that the tool has, and of equal ones the first
stays. The order of the collections matters for the order of the packages only, and nothing but the
packages matters of a collection that can be read. -/
theorem expand_packages {fragment result : Fragment} {v : Value}
    (hd : (Value.mapping fragment).Distinct) (hv : fragment.extension? .ruleCollections = some v)
    (h : fragment.expand.value = .ok result) :
    ∃ (collections : Fragment) (names : List String) (existing dirs packages ruleDirs : List Value),
      v = .mapping collections ∧ HasPackages collections names ∧
      (Value.mapping fragment).HasList ["reviews", "tools", "ast-grep", "packages"] existing ∧
      (Value.mapping fragment).HasList ["reviews", "tools", "ast-grep", "rule_dirs"] dirs ∧
      (Value.mapping result).at? ["reviews", "tools", "ast-grep", "packages"] =
        some (.list packages) ∧
      (Value.mapping result).at? ["reviews", "tools", "ast-grep", "rule_dirs"] =
        some (.list ruleDirs) ∧
      Deduplicates existing (names.map .string) packages ∧ Deduplicates dirs [] ruleDirs ∧
      (∀ others : Fragment, others.Perm collections → ∃ (other : Fragment) (reordered : List Value),
        (fragment.insert "rule_collections" (.mapping others)).expand.value = .ok other ∧
        (Value.mapping other).at? ["reviews", "tools", "ast-grep", "packages"] =
          some (.list reordered) ∧
        reordered.Perm packages) ∧
      ∀ others : Fragment, HasPackages others names →
        (fragment.insert "rule_collections" (.mapping others)).expand.value = .ok result := by
  rw [expand_eq_plans, Attempt.value_bind] at h
  obtain ⟨config, hconfig, h⟩ := bind_eq_ok.mp h
  obtain ⟨collections, tool, names, rfl, hnames, rfl⟩ := run_collectionPlan_eq_ok hv h
  obtain ⟨hexisting, hdirs⟩ := hasList_tool hconfig tool
  have hpackages := hexisting.distinct hd
  have hruleDirs : ∀ item ∈ tool.ruleDirs ++ [], item.Distinct := by
    rw [List.append_nil]
    exact hdirs.distinct hd
  have hdeduplicates := deduplicates_dedup hruleDirs
  rw [List.append_nil] at hdeduplicates
  refine ⟨collections, names, _, _, _, _, rfl, hnames, hexisting, hdirs, tool.at?_packages _ _,
    tool.at?_ruleDirs _ _, deduplicates_dedup (distinct_texts hpackages names), hdeduplicates,
    fun others hothers => ?_, fun others hothers => ?_⟩
  · obtain ⟨reordered, hreordered, hperm⟩ := hnames.perm hothers.symm
    exact ⟨_, _, value_expand_insert_collections hconfig tool hreordered, tool.at?_packages _ _,
      (perm_dedup_texts hpackages hperm).symm⟩
  · exact value_expand_insert_collections hconfig tool hothers

def sharedExisting : List Value :=
  [.mapping [("a", .null), ("b", .number (.integer 1))], .string "lints",
    .mapping [("b", .number (.integer 1)), ("a", .null)]]

def sharedCollections : Fragment :=
  [("core", .mapping [("rules", .list [.string "no-eval"]),
      ("packages", .list [.string "lints", .string "extra"])]),
    ("web", .list [.null, .list [], .list [.string "style", .string "extra"]]),
    ("bare", .mapping [("packages", .null)])]

def shared : Fragment :=
  [("rule_collections", .mapping sharedCollections),
    ("reviews", .mapping [("tools", .mapping [("ast-grep", .mapping
      [("packages", .list sharedExisting), ("rule_dirs", .null)])])])]

def sharedPackages : List Value :=
  [.mapping [("a", .null), ("b", .number (.integer 1))], .string "lints", .string "extra",
    .string "style"]

def sharedResult : Fragment :=
  [("reviews", .mapping [("tools", .mapping [("ast-grep", .mapping
    [("packages", .list sharedPackages), ("rule_dirs", .list [])])])])]

theorem expand_shared :
    (Value.mapping shared).Distinct ∧ shared.expand.value = .ok sharedResult ∧
      (∃ names, HasPackages sharedCollections names ∧
        Deduplicates sharedExisting (names.map .string) sharedPackages) ∧
      ∃ (other : Fragment) (reordered : List Value),
        (shared.insert "rule_collections" (.mapping sharedCollections.reverse)).expand.value =
          .ok other ∧
        (Value.mapping other).at? ["reviews", "tools", "ast-grep", "packages"] =
          some (.list reordered) ∧
        reordered.Perm sharedPackages := by
  have hd : (Value.mapping shared).Distinct := by
    simp [Value.Distinct, Value.DistinctEntries, Value.DistinctItems, shared, sharedCollections,
      sharedExisting, keys]
  have hexpand : shared.expand.value = .ok sharedResult := rfl
  obtain ⟨collections, names, existing, dirs, packages, ruleDirs, hcollections, hnames, hexisting,
    -, hpackages, -, hdeduplicates, -, hperm, -⟩ := expand_packages hd rfl hexpand
  obtain rfl : sharedCollections = collections := Value.mapping.inj hcollections
  obtain rfl : sharedPackages = packages := Value.list.inj (Option.some.inj hpackages)
  have hexisting : sharedExisting = existing := by
    cases hexisting with
    | unset h => cases h
    | list h => exact Value.list.inj (Option.some.inj h)
  exact ⟨hd, hexpand, ⟨names, hnames, hexisting ▸ hdeduplicates⟩,
    hperm _ (List.reverse_perm sharedCollections)⟩

theorem idempotent_collectionPlan (fragment : Fragment) :
    Idempotent fragment.collectionPlan.run := by
  refine .run fun work hwork => ?_
  obtain ⟨collections, rfl⟩ := collectionPlan_eq_ok hwork
  exact idempotent_addPackages collections

theorem extension?_of_erase {again result : Fragment}
    (herase : again.erase "rule_collections" = result) {field : Extension}
    (hfield : field ≠ .ruleCollections) : again.extension? field = result.extension? field := by
  have hwithout := extension?_without [.ruleCollections] again field
  rw [if_neg (by simpa using hfield)] at hwithout
  rw [← hwithout, ← herase]
  rfl

/-- Where the collections are put back does not matter. -/
theorem expand_again {fragment result again : Fragment} {v : Value}
    (hv : fragment.get? "rule_collections" = some v) (h : fragment.expand.value = .ok result)
    (hagain : again.get? "rule_collections" = some v)
    (herase : again.erase "rule_collections" = result) : again.expand.value = .ok result := by
  have hnone : ∀ field : Extension, field.key ∉ keys result := not_mem_keys_expand h
  have hwithout : again.withoutExtensions = result := by
    rw [← withoutExtensions_without [.ruleCollections] again]
    exact (congrArg withoutExtensions herase).trans (withoutExtensions_eq_self hnone)
  have hpaths : again.pathPlan = none := by
    rw [pathPlan, extension?_of_erase herase (by decide), extension?_eq_none (hnone _)]
  have hcollections : again.collectionPlan = fragment.collectionPlan :=
    collectionPlan_congr (congrArg Value.set? (hagain.trans hv.symm))
  rw [expand_eq_plans, Attempt.value_bind] at h
  obtain ⟨config, -, h⟩ := bind_eq_ok.mp h
  rw [expand_eq_plans, hwithout, hpaths, hcollections, Plan.run_none, pure_bind]
  exact idempotent_collectionPlan fragment config result h

theorem expand_shared_again :
    shared.expand.value = .ok sharedResult ∧
      (sharedResult.insert "rule_collections" (.mapping sharedCollections)).expand.value =
        .ok sharedResult := by
  have hexpand : shared.expand.value = .ok sharedResult := rfl
  exact ⟨hexpand, expand_again rfl hexpand rfl rfl⟩

end Fragment
end FlatConfig
