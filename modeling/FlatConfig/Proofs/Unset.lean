import FlatConfig.Proofs.NullFields
import FlatConfig.Proofs.Places

/-!
Fields that are null and fields that are left out.

Every place that a lowering works in, every extension, and every field of a record that is read with
`Decoder.optional` may be null instead of left out (`OptionalField.TakesNull`). The parameters of a
reference and the rules of a collection may only be left out.
-/

set_option autoImplicit false

namespace FlatConfig

namespace Expand

theorem findSet_adjust {sets : Fragment} {set : String} {f g : Value → Value}
    (h : ∀ v, sets.get? set = some v → InstructionSet.decode (f v) = InstructionSet.decode (g v))
    (name : String) : findSet (sets.adjust set f) name = findSet (sets.adjust set g) name := by
  rw [findSet, findSet, Fragment.get?_adjust, Fragment.get?_adjust]
  by_cases hname : set = name
  · rw [if_pos hname, if_pos hname]
    subst hname
    cases hget : sets.get? set with
    | none => rfl
    | some v => simp only [Option.map_some, h v hget]
  · rw [if_neg hname, if_neg hname]

theorem lowerEntries_congr {a b : Fragment} {entries : List Value}
    (h : ∀ entry ∈ entries, lowerEntry a entry = lowerEntry b entry) :
    lowerEntries a entries = lowerEntries b entries := by
  induction entries with
  | nil => rfl
  | cons entry rest ih =>
    obtain ⟨hentry, hrest⟩ := List.forall_mem_cons.mp h
    rw [lowerEntries, lowerEntries, hentry, ih hrest]

theorem value_lowerEntries (sets : Fragment) (entries : List Value) :
    (lowerEntries sets entries).value =
      entries.filterMap fun entry => (lowerEntry sets entry).value := by
  induction entries with
  | nil => rfl
  | cons entry rest ih =>
    rw [lowerEntries, Logged.value_bind, Logged.value_bind, ih]
    cases h : (lowerEntry sets entry).value <;> simp [h]

theorem filterMap_modify {lower : Value → Option Value} {f : Value → Value} {entries : List Value}
    {i : Nat} {entry : Value} (hentry : entries[i]? = some entry) (h : lower (f entry) = none) :
    (entries.modify i f).filterMap lower = (entries.eraseIdx i).filterMap lower := by
  induction entries generalizing i with
  | nil => cases hentry
  | cons first rest ih =>
    cases i with
    | zero =>
      obtain rfl := Option.some.inj hentry
      rw [List.modify_zero_cons, List.eraseIdx_cons_zero, List.filterMap_cons_none h]
    | succ i =>
      rw [List.modify_succ_cons, List.eraseIdx_cons_succ, List.filterMap_cons, List.filterMap_cons,
        ih hentry]

theorem collectPackages_insert {v w : Value}
    (h : RuleCollection.decode v = RuleCollection.decode w) (collections : Fragment)
    (name : String) :
    collectPackages (collections.insert name v) = collectPackages (collections.insert name w) := by
  induction collections with
  | nil => simp only [Fragment.insert, Fragment.update, collectPackages, h]
  | cons e rest ih =>
    obtain ⟨k, u⟩ := e
    rw [Fragment.insert_cons, Fragment.insert_cons]
    by_cases hk : k = name
    · simp only [if_pos hk, collectPackages, h]
    · simp only [if_neg hk, collectPackages, ih]

theorem collectPackages_adjust {collections : Fragment} {name : String} {f g : Value → Value}
    (h : ∀ v, collections.get? name = some v →
      RuleCollection.decode (f v) = RuleCollection.decode (g v)) :
    collectPackages (collections.adjust name f) = collectPackages (collections.adjust name g) := by
  cases hget : collections.get? name with
  | none => rw [Fragment.adjust, Fragment.adjust, hget]
  | some v =>
    rw [Fragment.adjust_of_get? hget, Fragment.adjust_of_get? hget]
    exact collectPackages_insert (h v hget) collections name

theorem value_collectPackages_cons (name : String) (v : Value) (rest : Fragment) :
    (collectPackages ((name, v) :: rest)).value =
      (RuleCollection.decode v).mapError (.extension .ruleCollections) >>= fun collection =>
        (collectPackages rest).value >>= fun more =>
          .ok ((collection.packages.getD []).map .string ++ more) := by
  simp only [collectPackages, Attempt.value_bind, Attempt.value_ofExcept, Attempt.value_tell,
    ok_bind, Attempt.value_pure]

section

variable {v w : Value} {e : DecodeError}
  (h : ∀ collection, RuleCollection.decode v = .ok collection → RuleCollection.decode w = .error e)
include h

theorem collectPackages_cons_error {name : String} {rest : Fragment}
    (hv : (collectPackages ((name, v) :: rest)).Succeeds) :
    (collectPackages ((name, w) :: rest)).value = .error (.extension .ruleCollections e) := by
  obtain ⟨added, hadded⟩ := hv
  rw [value_collectPackages_cons] at hadded ⊢
  cases hdecode : RuleCollection.decode v with
  | error e => rw [hdecode] at hadded; cases hadded
  | ok collection => rw [h collection hdecode]; rfl

theorem collectPackages_insert_error {collections : Fragment} {name : String}
    (hv : (collectPackages (collections.insert name v)).Succeeds) :
    (collectPackages (collections.insert name w)).value =
      .error (.extension .ruleCollections e) := by
  induction collections with
  | nil => exact collectPackages_cons_error h hv
  | cons entry rest ih =>
    obtain ⟨k, u⟩ := entry
    rw [Fragment.insert_cons] at hv ⊢
    by_cases hk : k = name
    · rw [if_pos hk] at hv ⊢
      exact collectPackages_cons_error h hv
    · rw [if_neg hk] at hv ⊢
      obtain ⟨added, hadded⟩ := hv
      rw [value_collectPackages_cons] at hadded ⊢
      obtain ⟨collection, hcollection, hadded⟩ := bind_eq_ok.mp hadded
      obtain ⟨more, hmore, _⟩ := bind_eq_ok.mp hadded
      rw [hcollection, ok_bind, ih ⟨more, hmore⟩, error_bind]

end

theorem value_within_error {p q : Stage} {e : Error}
    (h : ∀ m, (p m).Succeeds → (q m).value = .error e) (c : Container) {m : Fragment}
    (hp : (c.within p m).Succeeds) : (c.within q m).value = .error e := by
  obtain ⟨inner, hinner, hp⟩ := c.succeeds_within_iff.mp hp
  rw [Container.value_within, hinner, ok_bind, h inner hp, error_bind]

theorem value_addPackages_error {cs ds : Fragment} {e : Error}
    (h : (collectPackages cs).Succeeds → (collectPackages ds).value = .error e) {m : Fragment}
    (hm : (addPackages cs m).Succeeds) : (addPackages ds m).value = .error e := by
  refine value_within_error (fun tools htools => ?_) _ hm
  refine value_within_error (fun astGrep hastGrep => ?_) _ htools
  simp only [takePackages, Attempt.succeeds_bind_iff, Attempt.value_ofExcept] at hastGrep
  obtain ⟨packages, hpackages, ruleDirs, hruleDirs, added, hadded, _⟩ := hastGrep
  simp only [takePackages, Attempt.value_bind, Attempt.value_ofExcept, hpackages, hruleDirs,
    ok_bind, h ⟨added, hadded⟩, error_bind]

end Expand

namespace Fragment

open Expand

theorem expand_congr {a b : Fragment} (h : a.withoutExtensions = b.withoutExtensions)
    (hpaths : a.pathPlan = b.pathPlan) (hcollections : a.collectionPlan = b.collectionPlan) :
    a.expand = b.expand := by
  rw [expand_eq_plans, expand_eq_plans, h, hpaths, hcollections]

theorem adjust_mapping_congr {α : Type} (result : Fragment → α) {fragment : Fragment} {key : String}
    {f g : Fragment → Fragment}
    (h : ∀ inner, fragment.get? key = some (.mapping inner) →
      result (fragment.insert key (.mapping (f inner))) =
        result (fragment.insert key (.mapping (g inner)))) :
    result (fragment.adjust key (Value.onMapping f)) =
      result (fragment.adjust key (Value.onMapping g)) := by
  cases hget : fragment.get? key with
  | none => rw [adjust, adjust, hget]
  | some v =>
    rw [adjust_of_get? hget, adjust_of_get? hget]
    cases v with
    | mapping inner => exact h inner hget
    | _ => rfl

theorem extension?_put (fragment : Fragment) (field : Extension) (new : Option Value)
    (other : Extension) :
    (fragment.put field.key new).extension? other =
      if field = other then Value.set? new else fragment.extension? other := by
  rw [extension?, extension?, get?_put]
  by_cases h : field = other
  · rw [if_pos h, if_pos (congrArg _ h)]
  · rw [if_neg h, if_neg (Extension.key_inj.not.mpr h)]

theorem extension?_insert_self (fragment : Fragment) (field : Extension) (v : Value) :
    (fragment.insert field.key v).extension? field = Value.set? (some v) :=
  (extension?_put fragment field (some v) field).trans (if_pos rfl)

theorem extension?_insert_of_ne (fragment : Fragment) {field other : Extension} (h : field ≠ other)
    (v : Value) : (fragment.insert field.key v).extension? other = fragment.extension? other :=
  (extension?_put fragment field (some v) other).trans (if_neg h)

theorem expand_put_null (fragment : Fragment) (field : Extension) :
    (fragment.put field.key (some .null)).expand = (fragment.put field.key none).expand := by
  have hextension (other : Extension) :
      (fragment.put field.key (some .null)).extension? other =
        (fragment.put field.key none).extension? other := by
    rw [extension?_put, extension?_put]
    rfl
  refine expand_congr ?_ (pathPlan_congr (hextension _) (hextension _))
    (collectionPlan_congr (hextension _))
  exact (withoutExtensions_insert fragment field .null).trans
    (withoutExtensions_without [field] fragment).symm

theorem pathPlan_insert_sets (fragment sets : Fragment) :
    (fragment.insert Extension.instructionSets.key (.mapping sets)).pathPlan =
      (fragment.extension? .pathInstructions).map fun entries =>
        appendPathInstructions sets <$> decodeList .pathInstructions entries := by
  rw [pathPlan, extension?_insert_self, extension?_insert_of_ne _ (by decide)]
  cases fragment.extension? .pathInstructions with
  | none => rfl
  | some entries => cases entries <;> rfl

theorem expand_insert_sets (fragment : Fragment) {a b : Fragment}
    (h : ∀ name, findSet a name = findSet b name) :
    (fragment.insert Extension.instructionSets.key (.mapping a)).expand =
      (fragment.insert Extension.instructionSets.key (.mapping b)).expand := by
  have happend : appendPathInstructions a = appendPathInstructions b := by
    funext entries reviews
    have hentries : lowerEntries a entries = lowerEntries b entries :=
      lowerEntries_congr fun entry _ => by simp only [lowerEntry, h]
    rw [appendPathInstructions, appendPathInstructions, hentries]
  refine expand_congr ?_ ?_ (collectionPlan_congr ?_)
  · rw [withoutExtensions_insert, withoutExtensions_insert]
  · rw [pathPlan_insert_sets, pathPlan_insert_sets, happend]
  · rw [extension?_insert_of_ne _ (by decide), extension?_insert_of_ne _ (by decide)]

theorem pathPlan_insert_entries (fragment : Fragment) (entries : List Value) :
    (fragment.insert Extension.pathInstructions.key (.list entries)).pathPlan =
      (fragment.extension? .instructionSets).map fun sets =>
        (appendPathInstructions · entries) <$> decodeMapping .instructionSets sets := by
  rw [pathPlan, extension?_insert_self, extension?_insert_of_ne _ (by decide)]
  cases fragment.extension? .instructionSets with
  | none => rfl
  | some sets => cases sets <;> rfl

theorem value_expand_insert_entries (fragment : Fragment) {es fs : List Value}
    (h : ∀ sets, (lowerEntries sets es).value = (lowerEntries sets fs).value) :
    (fragment.insert Extension.pathInstructions.key (.list es)).expand.value =
      (fragment.insert Extension.pathInstructions.key (.list fs)).expand.value := by
  have happend (sets reviews : Fragment) : (appendPathInstructions sets es reviews).value =
      (appendPathInstructions sets fs reviews).value := by
    rw [writes_appendPathInstructions sets es reviews,
      writes_appendPathInstructions sets fs reviews, h]
  have hcollections (entries : List Value) :
      (fragment.insert Extension.pathInstructions.key (.list entries)).collectionPlan =
        fragment.collectionPlan :=
    collectionPlan_congr (extension?_insert_of_ne _ (by decide) _)
  simp only [expand_eq_plans, Attempt.value_bind, withoutExtensions_insert, hcollections,
    pathPlan_insert_entries]
  cases fragment.extension? .instructionSets with
  | none => rfl
  | some sets =>
    cases hsets : decodeMapping .instructionSets sets with
    | error e => simp only [Option.map_some, hsets]; rfl
    | ok sets =>
      simp only [Option.map_some, hsets, map_ok, Plan.run_ok, Container.value_within, happend]

theorem collectionPlan_insert (fragment collections : Fragment) :
    (fragment.insert Extension.ruleCollections.key (.mapping collections)).collectionPlan =
      some (.ok (addPackages collections)) := by
  rw [collectionPlan, extension?_insert_self]
  rfl

theorem expand_insert_collections_eq (fragment collections : Fragment) :
    (fragment.insert Extension.ruleCollections.key (.mapping collections)).expand =
      fragment.pathPlan.run fragment.withoutExtensions >>=
        Container.reviews.within (addPackages collections) := by
  rw [expand_eq_plans, withoutExtensions_insert, collectionPlan_insert, Plan.run_ok,
    pathPlan_congr (extension?_insert_of_ne _ (by decide) _)
      (extension?_insert_of_ne _ (by decide) _)]

theorem expand_insert_collections (fragment : Fragment) {a b : Fragment}
    (h : collectPackages a = collectPackages b) :
    (fragment.insert Extension.ruleCollections.key (.mapping a)).expand =
      (fragment.insert Extension.ruleCollections.key (.mapping b)).expand := by
  have htake : takePackages a = takePackages b := by
    funext astGrep
    rw [takePackages, takePackages, h]
  rw [expand_insert_collections_eq, expand_insert_collections_eq, addPackages, addPackages, htake]

end Fragment

/-- The fields that may be left out, of a configuration and of the records in its extensions. -/
inductive OptionalField where
  | extension (field : Extension)
  | place (c : Container)
  | setDescription (set : String)
  | parameters (entry : Nat)
  | collectionDescription (collection : String)
  | rules (collection : String)
  | packages (collection : String)

namespace OptionalField

def put (new : Option Value) (fragment : Fragment) : OptionalField → Fragment
  | .extension field => fragment.put field.key new
  | .place c => fragment.edit (·.put c.key new) c.holders
  | .setDescription set =>
    fragment.edit (·.adjust set (.putField "description" 0 new)) [Extension.instructionSets.key]
  | .parameters entry =>
    fragment.adjust Extension.pathInstructions.key <| .onList
      (·.modify entry (.adjustField "instructions" 1 (.putField "with" 1 new)))
  | .collectionDescription name =>
    fragment.edit (·.adjust name (.putField "description" 0 new)) [Extension.ruleCollections.key]
  | .rules name =>
    fragment.edit (·.adjust name (.putField "rules" 1 new)) [Extension.ruleCollections.key]
  | .packages name =>
    fragment.edit (·.adjust name (.putField "packages" 2 new)) [Extension.ruleCollections.key]

def IsRead (fragment : Fragment) : OptionalField → Prop
  | .extension _ => True
  | .place c => fragment.Reads c
  | .setDescription _ | .parameters _ => fragment.LowersPaths
  | .collectionDescription _ | .rules _ | .packages _ => fragment.LowersCollections

/-- Null in the field is the same as leaving it out. -/
def TakesNull : OptionalField → Prop
  | .parameters _ | .rules _ => False
  | _ => True

end OptionalField

namespace Fragment

open Expand

section

variable {fragment : Fragment} (hd : (Value.mapping fragment).Distinct)
include hd

theorem expand_null_set_description (set : String) :
    ((OptionalField.setDescription set).put (some .null) fragment).expand =
      ((OptionalField.setDescription set).put none fragment).expand := by
  apply adjust_mapping_congr expand
  intro sets hsets
  apply expand_insert_sets
  apply findSet_adjust
  intro v hv
  exact InstructionSet.decode_null_description (distinct_of_get? (distinct_of_get? hd hsets) hv)

theorem expand_null_collection {field : String} {position : Nat}
    (h : ∀ v : Value, v.Distinct →
      RuleCollection.decode (v.putField field position (some .null)) =
        RuleCollection.decode (v.putField field position none))
    (name : String) :
    (fragment.edit (·.adjust name (.putField field position (some .null)))
        [Extension.ruleCollections.key]).expand =
      (fragment.edit (·.adjust name (.putField field position none))
        [Extension.ruleCollections.key]).expand := by
  apply adjust_mapping_congr expand
  intro collections hcollections
  apply expand_insert_collections
  apply collectPackages_adjust
  intro v hv
  exact h v (distinct_of_get? (distinct_of_get? hd hcollections) hv)

theorem expand_null {field : OptionalField} (hread : field.IsRead fragment)
    (htakes : field.TakesNull) :
    Alike Rearranged (field.put (some .null) fragment).expand.value
      (field.put none fragment).expand.value := by
  cases field with
  | extension e => exact .of_eq .refl (congrArg _ (expand_put_null fragment e))
  | place c => exact expand_place hd hread
  | setDescription set => exact .of_eq .refl (congrArg _ (expand_null_set_description hd set))
  | parameters entry => exact htakes.elim
  | collectionDescription name =>
    exact .of_eq .refl (congrArg _ (expand_null_collection hd
      (fun _ => RuleCollection.decode_null_description) name))
  | rules name => exact htakes.elim
  | packages name =>
    exact .of_eq .refl (congrArg _ (expand_null_collection hd
      (fun _ => RuleCollection.decode_null_packages) name))

end

/-- An entry whose reference has null parameters is passed over. -/
theorem expand_null_parameters {fragment : Fragment} {entries : List Value} {entry : Value}
    {i : Nat} {path : String} {r : InstructionRef}
    (hentries : fragment.get? Extension.pathInstructions.key = some (.list entries))
    (hentry : entries[i]? = some entry)
    (hreference : PathInstruction.decode
      (entry.adjustField "instructions" 1 (.putField "with" 1 none)) = .ok ⟨path, .reference r⟩) :
    ((OptionalField.parameters i).put (some .null) fragment).expand.value =
      (fragment.insert Extension.pathInstructions.key
        (.list (entries.eraseIdx i))).expand.value := by
  obtain ⟨e, he⟩ := PathInstruction.decode_null_parameters hreference
  rw [OptionalField.put, adjust_of_get? hentries]
  apply value_expand_insert_entries
  intro sets
  rw [value_lowerEntries, value_lowerEntries]
  apply filterMap_modify hentry
  rw [lowerEntry, he]

/-- A collection whose rules are null cannot be read, and then nothing is expanded. -/
theorem expand_null_rules {fragment collections : Fragment} {name : String} {v : Value}
    (hcollections : fragment.get? Extension.ruleCollections.key = some (.mapping collections))
    (hv : collections.get? name = some v) (hne : v ≠ .list [])
    (h : ((OptionalField.rules name).put none fragment).expand.Succeeds) :
    ((OptionalField.rules name).put (some .null) fragment).expand.value =
      .error (.extension .ruleCollections (.invalidType .null .sequence)) := by
  have hput (new : Option Value) : (OptionalField.rules name).put new fragment =
      fragment.insert Extension.ruleCollections.key
        (.mapping (collections.insert name (v.putField "rules" 1 new))) := by
    rw [OptionalField.put, edit, adjust_of_get? hcollections, Value.onMapping, edit,
      adjust_of_get? hv]
  rw [hput, expand_insert_collections_eq] at h ⊢
  obtain ⟨config, hconfig, h⟩ := Attempt.succeeds_bind_iff.mp h
  rw [Attempt.value_bind, hconfig, ok_bind]
  refine value_within_error (fun reviews hreviews => ?_) _ h
  apply value_addPackages_error _ hreviews
  apply collectPackages_insert_error
  intro collection hcollection
  exact RuleCollection.decode_null_rules hcollection hne

/-- Of all optional fields only two are not left out by setting them to null. An entry of the path
instructions with null parameters is passed over, and null rules are an error. -/
theorem expand_null_or_absent {fragment : Fragment} (hd : (Value.mapping fragment).Distinct) :
    (∀ field : OptionalField, field.IsRead fragment → field.TakesNull →
      Alike Rearranged (field.put (some .null) fragment).expand.value
        (field.put none fragment).expand.value) ∧
    (∀ (entries : List Value) (entry : Value) (i : Nat) (path : String) (r : InstructionRef),
      fragment.get? Extension.pathInstructions.key = some (.list entries) →
      entries[i]? = some entry →
      PathInstruction.decode (entry.adjustField "instructions" 1 (.putField "with" 1 none)) =
        .ok ⟨path, .reference r⟩ →
      ((OptionalField.parameters i).put (some .null) fragment).expand.value =
        (fragment.insert Extension.pathInstructions.key
          (.list (entries.eraseIdx i))).expand.value) ∧
    ∀ (collections : Fragment) (name : String) (v : Value),
      fragment.get? Extension.ruleCollections.key = some (.mapping collections) →
      collections.get? name = some v → v ≠ .list [] →
      ((OptionalField.rules name).put none fragment).expand.Succeeds →
      ((OptionalField.rules name).put (some .null) fragment).expand.value =
        .error (.extension .ruleCollections (.invalidType .null .sequence)) :=
  ⟨fun _ hread htakes => expand_null hd hread htakes,
    fun _ _ _ _ _ hentries hentry hreference =>
      expand_null_parameters hentries hentry hreference,
    fun _ _ _ hcollections hv hne h => expand_null_rules hcollections hv hne h⟩

def greeting : Fragment :=
  [("instruction_sets", .mapping [("greet", .mapping [("instructions", .string "hi")])]),
    ("enhanced_path_instructions", .list
      [.mapping [("path", .string "src"), ("instructions", .mapping [("use", .string "greet")])]]),
    ("rule_collections", .mapping [("core", .mapping [("packages", .list [.string "lints"])])])]

def greetingReviews (entries : List Value) : Fragment :=
  [("reviews", .mapping [("path_instructions", .list entries), lintTools])]

theorem distinct_greeting : (Value.mapping greeting).Distinct := by
  simp [Value.Distinct, Value.DistinctEntries, Value.DistinctItems, greeting, keys]

theorem expand_greeting_null :
    (Value.mapping greeting).Distinct ∧
      Alike Rearranged
        ((OptionalField.packages "core").put (some .null) greeting).expand.value
        ((OptionalField.packages "core").put none greeting).expand.value ∧
      ((OptionalField.parameters 0).put (some .null) greeting).expand.value =
        .ok (greetingReviews []) ∧
      ((OptionalField.rules "core").put (some .null) greeting).expand.value =
        .error (.extension .ruleCollections (.invalidType .null .sequence)) := by
  obtain ⟨htakes, hparameters, hrules⟩ := expand_null_or_absent distinct_greeting
  refine ⟨distinct_greeting, htakes (.packages "core") rfl trivial, ?_, ?_⟩
  · exact hparameters _ _ 0 "src" ⟨"greet", []⟩ rfl rfl rfl
  · exact hrules _ "core" _ rfl rfl nofun ⟨greetingReviews [lowered "src" "hi"], rfl⟩

/-- Both fields are read here, and null in either is not the same as leaving it out. -/
theorem greeting_null_differs :
    (Value.mapping greeting).Distinct ∧
      ((OptionalField.parameters 0).IsRead greeting ∧
        ¬ Alike Rearranged ((OptionalField.parameters 0).put (some .null) greeting).expand.value
          ((OptionalField.parameters 0).put none greeting).expand.value) ∧
      (OptionalField.rules "core").IsRead greeting ∧
        ¬ Alike Rearranged ((OptionalField.rules "core").put (some .null) greeting).expand.value
          ((OptionalField.rules "core").put none greeting).expand.value := by
  refine ⟨distinct_greeting, ⟨⟨rfl, rfl⟩, fun h => ?_⟩, rfl, fun h => ?_⟩
  · change Alike Rearranged (.ok (greetingReviews []))
      (.ok (greetingReviews [lowered "src" "hi"])) at h
    have hd : (Value.mapping (greetingReviews [])).Distinct := by
      simp [Value.Distinct, Value.DistinctEntries, Value.DistinctItems, greetingReviews, lintTools,
        keys]
    cases h with
    | ok h => exact absurd (h.same hd) (by decide)
  · change Alike Rearranged (.error _) (.ok _) at h
    cases h

end Fragment
end FlatConfig
