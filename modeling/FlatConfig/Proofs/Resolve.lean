import FlatConfig.Proofs.Disk
import FlatConfig.Proofs.Expand
import FlatConfig.Proofs.Leaves
import FlatConfig.Proofs.Merge
import FlatConfig.Source
import FlatConfig.Yaml.Writer

set_option autoImplicit false

namespace FlatConfig

namespace Fragment

/-- What is left when a configuration has been resolved. -/
structure IsResolved (fragment : Fragment) : Prop where
  nodup : (keys fragment).Nodup
  valid : fragment.validate = .ok ()
  lowered : ∀ field : Extension, field.key ∉ keys fragment

theorem validate_eq_ok {fragment : Fragment} :
    fragment.validate = .ok () ↔
      ∀ v, get? fragment "version" = some v → ∃ n, v = .number n := by
  rw [validate]
  cases h : get? fragment "version" with
  | none => simp
  | some v => cases v <;> simp

theorem validate_congr {a b : Fragment} (h : get? a "version" = get? b "version") :
    a.validate = b.validate := by
  rw [validate, validate, h]

theorem validate_mergeAll {fragments : List Fragment}
    (h : ∀ f ∈ fragments, f.validate = .ok ()) : (mergeAll fragments).validate = .ok () := by
  rw [validate_eq_ok]
  intro v hv
  rw [get?_mergeAll] at hv
  cases hc : fragments.flatMap (valuesAt · "version") with
  | nil => simp [hc, Value.mergeAll] at hv
  | cons first rest =>
    have hhead := List.head?_flatMap (l := fragments) (f := (valuesAt · "version"))
    simp only [hc, List.head?_cons, head?_valuesAt] at hhead
    obtain ⟨f, hf, hget⟩ := List.exists_of_findSome?_eq_some hhead.symm
    obtain ⟨n, rfl⟩ := validate_eq_ok.mp (h f hf) first hget
    rw [hc, Value.mergeAll, Value.foldl_merge_of_not_mapping (by simp) (by simp)] at hv
    exact ⟨n, (Option.some.inj hv).symm⟩

theorem isResolved_expand {fragment result : Fragment} (hn : (keys fragment).Nodup)
    (hv : fragment.validate = .ok ()) (h : fragment.expand.value = .ok result) :
    result.IsResolved := by
  have hversion : get? fragment.withoutExtensions "version" = get? fragment "version" :=
    get?_withoutExtensions (fun field => by cases field <;> decide) fragment
  have hnodup := nodup_keys_withoutExtensions hn
  have hlowered := not_mem_keys_withoutExtensions fragment
  rcases expand_eq_ok h with rfl | ⟨reviews, rfl⟩
  · exact ⟨hnodup, by rw [validate_congr hversion, hv], hlowered⟩
  · refine ⟨nodup_keys_insert hnodup _ _, ?_, ?_⟩
    · rw [← hv]
      apply validate_congr
      rw [get?_insert, if_neg (by decide), hversion]
    · intro field
      have hne : Container.reviews.key ≠ field.key := by cases field <;> decide
      rw [← get?_eq_none_iff, get?_insert, if_neg hne]
      exact get?_eq_none_iff.mpr (hlowered field)

end Fragment

namespace Item

theorem resolve_eq_ok {item : Item} {env : Environment} {result : Fragment} :
    (item.resolve env).value = .ok result ↔
      ∃ fragments, (item.flatten env).value = .ok fragments ∧
        (∀ f ∈ fragments, f.validate = .ok ()) ∧
          (Fragment.mergeAll fragments).expand.value = .ok result := by
  rw [value_resolve]
  constructor
  · intro h
    obtain ⟨fragments, hf, h⟩ := bind_eq_ok.mp h
    obtain ⟨_, hv, h⟩ := bind_eq_ok.mp h
    exact ⟨fragments, hf, forM_eq_ok.mp hv, h⟩
  · rintro ⟨fragments, hf, hv, h⟩
    rw [hf, ok_bind, forM_eq_ok.mpr hv, ok_bind, h]

theorem isResolved_of_resolve {item : Item} {env : Environment} {result : Fragment}
    (h : (item.resolve env).value = .ok result) : result.IsResolved := by
  obtain ⟨fragments, _, hv, h⟩ := resolve_eq_ok.mp h
  exact Fragment.isResolved_expand (Fragment.nodup_keys_mergeAll fragments)
    (Fragment.validate_mergeAll hv) h

/-- A mapping in normal form resolves to itself in every environment. -/
theorem resolve_of_isResolved {fragment : Fragment} (h : fragment.IsResolved)
    (env : Environment) : ((Item.fragment fragment).resolve env).value = .ok fragment := by
  refine resolve_eq_ok.mpr ⟨[fragment], ?_, by simpa using h.valid, ?_⟩
  · rw [value_flatten]
    rfl
  · have hm : Fragment.mergeAll [fragment] = fragment := Fragment.nil_merge h.nodup
    rw [hm, Fragment.expand_eq_pure h.lowered]
    rfl

def generate (item : Item) (env : Environment) : Attempt String :=
  Fragment.toYaml <$> item.resolve env

theorem generate_eq_ok {item : Item} {env : Environment} {text : String} :
    (item.generate env).value = .ok text ↔
      ∃ result, (item.resolve env).value = .ok result ∧ result.toYaml = text := by
  rw [generate, Attempt.value_map]
  cases (item.resolve env).value <;> simp

end Item

theorem Source.load_of_read? {disk : Disk} {path text : String} (hp : disk.isPresent path = true)
    (hr : disk.read? path = some text) :
    (Source.load path : StateM Disk (Attempt Item)).run disk = (Source.read path text, disk) := by
  simp [Source.load, Host.isPresent, Host.read?, hp, hr]
  rfl

theorem Source.value_read_yaml {path text : String} {fragment : Fragment}
    (hformat : Source.Format.ofPath? path = some .yaml)
    (hread : Yaml.read? text = some (.mapping fragment)) :
    (Source.read path text).value = .ok (.fragment fragment) := by
  simp [Source.read, hformat, Source.parse, hread, Item.ofValue]

theorem Disk.write?_of_write {disk changed : Disk} {path text : String}
    (h : (Host.write path text : StateM Disk Bool).run disk = (true, changed)) :
    disk.write? path text.toUTF8 = some changed := by
  rw [run_write] at h
  split at h
  · rename_i written hw
    obtain ⟨_, rfl⟩ := Prod.mk.inj h
    exact hw
  · cases (Prod.mk.inj h).1

theorem Disk.write_to_empty (text : String) :
    (Host.write "/usagi.config.yaml" text : StateM Disk Bool).run ⟨.directory [], []⟩ =
      (true, ⟨.directory [("usagi.config.yaml", .file text.toUTF8)], []⟩) := by
  have hname : Disk.NamesInRoot "/usagi.config.yaml" "usagi.config.yaml" := by decide +kernel
  have hlocate : (⟨.directory [], []⟩ : Disk).locate true "/usagi.config.yaml" =
      .ok (.vacant ["usagi.config.yaml"]) := Disk.locate_inRoot hname (by simp)
  have hwrite : (⟨.directory [], []⟩ : Disk).write? "/usagi.config.yaml" text.toUTF8 =
      some ⟨.directory [("usagi.config.yaml", .file text.toUTF8)], []⟩ := by
    rw [Disk.write?, Disk.modify?, hlocate]
    rfl
  rw [run_write, hwrite]

namespace Item

/-- A result resolves to itself, and so does the file that its document is written to. -/
theorem resolve_resolve {item : Item} {env : Environment} {result : Fragment}
    (h : (item.resolve env).value = .ok result) :
    (∀ other, ((Item.fragment result).resolve other).value = .ok result) ∧
      ∃ text, (item.generate env).value = .ok text ∧
        ∀ (disk changed : Disk) (path : String),
          Source.Format.ofPath? path = some .yaml →
          Yaml.read? text = some (.mapping result) →
          (Host.write path text : StateM Disk Bool).run disk = (true, changed) →
          ∃ loaded,
            ((Source.load path : StateM Disk (Attempt Item)).run changed).1.value = .ok loaded ∧
              ∀ other, (loaded.generate other).value = .ok text := by
  have hagain := resolve_of_isResolved (isResolved_of_resolve h)
  refine ⟨hagain, result.toYaml, generate_eq_ok.mpr ⟨result, h, rfl⟩, ?_⟩
  intro disk changed path hformat hread hwrite
  have hw := Disk.write?_of_write hwrite
  have hp := Disk.isPresent_of_content? (Disk.content?_of_write? hw)
  refine ⟨.fragment result, ?_, fun other => generate_eq_ok.mpr ⟨result, hagain other, rfl⟩⟩
  rw [Source.load_of_read? hp (Disk.read?_of_write? hw)]
  exact Source.value_read_yaml hformat hread

def authored : Item :=
  .list
    [.fragment [("version", .number (.integer 2)),
      ("instruction_sets", .mapping [("style", .mapping
        [("instructions", .string "Use \x7b\x7b tone \x7d\x7d words")])])],
     .function "rules" fun _ => pure (.ok (.list [.list [], .fragment
      [("version", .number (.integer 3)),
       ("enhanced_path_instructions", .list [.mapping [("path", .string "docs"),
        ("instructions", .mapping [("use", .string "style"),
          ("with", .mapping [("tone", .string "kind")])])]]),
       ("rule_collections", .mapping [("core", .mapping
        [("rules", .list []), ("packages", .list [.string "lints"])])])]]))]

def authoredResult : Fragment :=
  [("version", .number (.integer 2)),
   ("reviews", .mapping
     [("path_instructions", .list
       [.mapping [("path", .string "docs"), ("instructions", .string "Use kind words")]]),
      ("tools", .mapping [("ast-grep", .mapping
        [("packages", .list [.string "lints"]), ("rule_dirs", .list [])])])])]

theorem resolve_authored : (authored.resolve []).value = .ok authoredResult := rfl

theorem authored_again :
    ((Item.fragment authoredResult).resolve [("user", "me")]).value = .ok authoredResult ∧
      ∃ text loaded, (authored.generate []).value = .ok text ∧
        ((Source.load "/usagi.config.yaml" : StateM Disk (Attempt Item)).run
          ⟨.directory [("usagi.config.yaml", .file text.toUTF8)], []⟩).1.value = .ok loaded ∧
        (loaded.generate [("user", "me")]).value = .ok text := by
  have hformat : Source.Format.ofPath? "/usagi.config.yaml" = some .yaml := by decide +kernel
  have hread : Yaml.read? authoredResult.toYaml = some (.mapping authoredResult) := by
    decide +kernel
  obtain ⟨hagain, text, htext, hfile⟩ := resolve_resolve resolve_authored
  have hsame : text = authoredResult.toYaml := by
    have hyaml := generate_eq_ok.mpr ⟨authoredResult, resolve_authored, rfl⟩
    exact Except.ok.inj (htext.symm.trans hyaml)
  rw [← hsame] at hread
  obtain ⟨loaded, hload, hother⟩ := hfile _ _ _ hformat hread (Disk.write_to_empty text)
  exact ⟨hagain _, text, loaded, htext, hload, hother _⟩

end Item
end FlatConfig
