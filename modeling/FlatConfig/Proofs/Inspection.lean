import FlatConfig.Error
import FlatConfig.Inspect
import FlatConfig.Proofs.NullFields

set_option autoImplicit false

namespace FlatConfig

namespace Decoder

theorem string_eq_ok {v : Value} {s : String} (h : string v = .ok s) : v = .string s := by
  cases v with
  | string t => rw [Except.ok.inj h]
  | _ => cases h

theorem listOf_eq_ok {α : Type} {item : Decoder α} {v : Value} {xs : List α}
    (h : listOf item v = .ok xs) : ∃ items, v = .list items ∧ items.mapM item = .ok xs := by
  obtain ⟨items, hitems, hmapM⟩ := bind_eq_ok.mp h
  cases v with
  | list _ => exact ⟨items, congrArg Value.list (Except.ok.inj hitems), hmapM⟩
  | _ => cases hitems

theorem field_eq_ok_none {α : Type} {item : Decoder α} {entries : Fragment} {key : String}
    (h : field entries key item = .ok none) : entries.get? key = none := by
  unfold field at h
  split at h
  · obtain ⟨x, -, hx⟩ := map_eq_ok.mp h
    cases hx
  · assumption

end Decoder

open Decoder

theorem InstructionSet.inspect_eq_of_decode {v : Value} {set : InstructionSet}
    (h : decode v = .ok set) (name : String) :
    inspect name v =
      if ValueKind.of v = .mapping then set.instructions else "[Function: " ++ name ++ "]" := by
  cases v with
  | mapping entries =>
    rw [decode] at h
    obtain ⟨_, -, h⟩ := bind_eq_ok.mp h
    obtain ⟨description, -, h⟩ := bind_eq_ok.mp h
    obtain ⟨instructions, hinstructions, h⟩ := bind_eq_ok.mp h
    have hkind : ValueKind.of (.mapping entries) = .mapping := rfl
    rw [if_pos hkind, inspect, Value.get?]
    cases instructions with
    | none => cases h
    | some text =>
      obtain rfl := Except.ok.inj h
      obtain ⟨w, hw, hstring⟩ := field_eq_ok hinstructions
      rw [hw, string_eq_ok hstring]
  | list items => rfl
  | _ => cases h

namespace RuleCollection

theorem filterMap_textItem? {items : List Value} {texts : List String}
    (h : items.mapM string = .ok texts) : items.filterMap textItem? = texts := by
  induction items generalizing texts with
  | nil => exact Except.ok.inj h
  | cons item rest ih =>
    rw [List.mapM_cons] at h
    obtain ⟨text, htext, h⟩ := bind_eq_ok.mp h
    obtain ⟨more, hmore, h⟩ := bind_eq_ok.mp h
    obtain rfl := Except.ok.inj h
    rw [string_eq_ok htext, List.filterMap_cons, ih hmore]
    rfl

theorem inspect_eq_of_decode {v : Value} {collection : RuleCollection}
    (h : decode v = .ok collection) :
    inspect v = if ValueKind.of v = .mapping then collection.rules else [] := by
  cases v with
  | mapping entries =>
    rw [decode] at h
    obtain ⟨_, -, h⟩ := bind_eq_ok.mp h
    obtain ⟨description, -, h⟩ := bind_eq_ok.mp h
    obtain ⟨rules, hrules, h⟩ := bind_eq_ok.mp h
    obtain ⟨packages, -, h⟩ := bind_eq_ok.mp h
    obtain rfl := Except.ok.inj h
    have hkind : ValueKind.of (.mapping entries) = .mapping := rfl
    rw [if_pos hkind, inspect, Value.get?]
    cases rules with
    | none => rw [field_eq_ok_none hrules]; rfl
    | some rules =>
      obtain ⟨w, hw, hlist⟩ := field_eq_ok hrules
      obtain ⟨items, rfl, htexts⟩ := listOf_eq_ok hlist
      rw [hw]
      exact filterMap_textItem? htexts
  | list items => rfl
  | _ => cases h

end RuleCollection

namespace Fragment

section

variable {α : Type} (shown : String → Value → α) (members : Fragment)

def listing : List (String × α) :=
  sortByName (members.map fun (name, v) => (name, shown name v))

theorem perm_names_listing : ((members.listing shown).map Prod.fst).Perm members.keys := by
  have hsort := List.mergeSort_perm (members.map fun (name, v) => (name, shown name v))
    (fun a b => a.1 ≤ b.1)
  have hnames := hsort.map Prod.fst
  rw [List.map_map] at hnames
  exact hnames

theorem mem_listing_iff {members : Fragment} (hd : members.keys.Nodup) {name : String} {v : Value}
    (hv : members.get? name = some v) {x : α} :
    (name, x) ∈ members.listing shown ↔ x = shown name v := by
  rw [listing, sortByName, List.mem_mergeSort, List.mem_map]
  constructor
  · rintro ⟨⟨k, w⟩, hmem, h⟩
    obtain ⟨rfl, rfl⟩ := Prod.mk.inj h
    rw [Option.some.inj (hv.symm.trans (get?_of_mem hd hmem))]
  · rintro rfl
    exact ⟨(name, v), mem_of_get? hv, rfl⟩

end

/-- There is one entry for every name. Of a member that can be read as a record it shows the record
if this is written as a mapping, and else what it shows of any list. -/
structure Lists {α β : Type} (members : Fragment) (entries : List (String × α)) (read : Decoder β)
    (ofMapping : β → α) (ofList : String → α) : Prop where
  perm_names : (entries.map Prod.fst).Perm members.keys
  nodup_names : (entries.map Prod.fst).Nodup
  mem_iff : ∀ name v record, members.get? name = some v → read v = .ok record →
    ∀ x, (name, x) ∈ entries ↔
      x = if ValueKind.of v = .mapping then ofMapping record else ofList name

theorem lists_listing {α β : Type} {shown : String → Value → α} {members : Fragment}
    {read : Decoder β} {ofMapping : β → α} {ofList : String → α} (hd : members.keys.Nodup)
    (h : ∀ {v record}, read v = .ok record → ∀ name,
      shown name v = if ValueKind.of v = .mapping then ofMapping record else ofList name) :
    members.Lists (members.listing shown) read ofMapping ofList where
  perm_names := perm_names_listing shown members
  nodup_names := (perm_names_listing shown members).nodup_iff.mpr hd
  mem_iff _ _ _ hv hrecord _ := by rw [mem_listing_iff shown hd hv, h hrecord]

theorem instructionSets_eq_listing {fragment sets : Fragment}
    (h : fragment.get? "instruction_sets" = some (.mapping sets)) :
    fragment.instructionSets = sets.listing InstructionSet.inspect := by
  have hmembers : fragment.members .instructionSets = sets := by
    rw [members, Extension.key, h]
  rw [instructionSets, hmembers, listing]

theorem ruleCollections_eq_listing {fragment collections : Fragment}
    (h : fragment.get? "rule_collections" = some (.mapping collections)) :
    fragment.ruleCollections = collections.listing fun _ => RuleCollection.inspect := by
  have hmembers : fragment.members .ruleCollections = collections := by
    rw [members, Extension.key, h]
  rw [ruleCollections, hmembers, listing]

/-- Both listings agree with what lowering reads as long as the records are mappings. In list form a
set passes for a function, and a collection for one without rules. -/
theorem inspect_members {fragment : Fragment} (hd : (Value.mapping fragment).Distinct) :
    (∀ sets : Fragment, fragment.get? "instruction_sets" = some (.mapping sets) →
      sets.Lists fragment.instructionSets InstructionSet.decode InstructionSet.instructions
        fun name => "[Function: " ++ name ++ "]") ∧
    ∀ collections : Fragment, fragment.get? "rule_collections" = some (.mapping collections) →
      collections.Lists fragment.ruleCollections RuleCollection.decode RuleCollection.rules
        fun _ => [] := by
  constructor
  · intro sets hsets
    rw [instructionSets_eq_listing hsets]
    exact lists_listing (distinct_of_get? hd hsets).1 InstructionSet.inspect_eq_of_decode
  · intro collections hcollections
    rw [ruleCollections_eq_listing hcollections]
    exact lists_listing (distinct_of_get? hd hcollections).1 fun hcollection _ =>
      RuleCollection.inspect_eq_of_decode hcollection

def listedSets : Fragment :=
  [("tone", .mapping [("instructions", .string "be brief")]),
    ("greet", .list [.null, .string "hi"])]

def listedCollections : Fragment :=
  [("web", .mapping [("rules", .list [.string "no-eval"])]),
    ("core", .list [.null, .list [.string "no-eval"]])]

def listed : Fragment :=
  [("instruction_sets", .mapping listedSets), ("rule_collections", .mapping listedCollections)]

theorem distinct_listed : (Value.mapping listed).Distinct := by
  simp [Value.Distinct, Value.DistinctEntries, Value.DistinctItems, listed, listedSets,
    listedCollections, keys]

theorem inspect_listed :
    (Value.mapping listed).Distinct ∧
      (("tone", "be brief") ∈ listed.instructionSets ∧
        ("greet", "[Function: greet]") ∈ listed.instructionSets) ∧
      ("web", ["no-eval"]) ∈ listed.ruleCollections ∧ ("core", []) ∈ listed.ruleCollections := by
  obtain ⟨hsets, hcollections⟩ := inspect_members distinct_listed
  have hset := (hsets listedSets rfl).mem_iff
  have hcollection := (hcollections listedCollections rfl).mem_iff
  refine ⟨distinct_listed, ⟨?_, ?_⟩, ?_, ?_⟩
  · exact (hset "tone" _ ⟨none, "be brief"⟩ rfl rfl _).mpr rfl
  · exact (hset "greet" _ ⟨none, "hi"⟩ rfl rfl _).mpr rfl
  · exact (hcollection "web" _ ⟨none, ["no-eval"], none⟩ rfl rfl _).mpr rfl
  · exact (hcollection "core" _ ⟨none, ["no-eval"], none⟩ rfl rfl _).mpr rfl

/-- Lowering reads a text and rules out of the list forms that the listings do not show. -/
theorem listed_differs :
    (Value.mapping listed).Distinct ∧
      (∃ name v set, listedSets.get? name = some v ∧ InstructionSet.decode v = .ok set ∧
        (name, set.instructions) ∉ listed.instructionSets) ∧
      ∃ name v collection, listedCollections.get? name = some v ∧
        RuleCollection.decode v = .ok collection ∧
        (name, collection.rules) ∉ listed.ruleCollections := by
  have hsets : listed.instructionSets = listedSets.listing InstructionSet.inspect :=
    instructionSets_eq_listing rfl
  have hcollections : listed.ruleCollections =
      listedCollections.listing fun _ => RuleCollection.inspect := ruleCollections_eq_listing rfl
  rw [hsets, hcollections]
  refine ⟨distinct_listed, ⟨"greet", _, ⟨none, "hi"⟩, rfl, rfl, fun h => ?_⟩,
    "core", _, ⟨none, ["no-eval"], none⟩, rfl, rfl, fun h => ?_⟩
  · have hshown := (mem_listing_iff _ (by simp [listedSets, keys]) rfl).mp h
    exact absurd hshown (by decide)
  · have hshown := (mem_listing_iff _ (by simp [listedCollections, keys]) rfl).mp h
    cases hshown

end Fragment
end FlatConfig
