import FlatConfig.Proofs.Frame
import FlatConfig.Proofs.Unset

/-!
What an expansion is refused for.

The checks are stated of the configuration as it comes, in the order in which they are made. An
expansion fails with what the first of them finds, and succeeds if none finds anything
(`Fragment.expand_eq_error_iff`).
-/

set_option autoImplicit false

namespace FlatConfig

/-- Something that may be wrong, with the error that it leads to. -/
abbrev Check := Error → Prop

namespace Check

/-- The error that the first check with something to say leads to. -/
def First (checks : List Check) (e : Error) : Prop :=
  ∃ before check after, checks = before ++ check :: after ∧ check e ∧
    ∀ earlier ∈ before, ∀ other, ¬ earlier other

def when (p : Prop) (check : Check) : Check := fun e => p ∧ check e

/-- A computation fails with what the first of these checks finds, and only then. -/
def Decide {α : Type} (checks : List Check) (x : Except Error α) : Prop :=
  ∀ e, x = .error e ↔ First checks e

variable {check : Check} {checks more : List Check} {e : Error} {α β : Type}

theorem not_first_nil : ¬ First [] e := by
  rintro ⟨before, check, after, h, -⟩
  cases before <;> cases h

theorem first_cons_iff :
    First (check :: checks) e ↔ check e ∨ (∀ other, ¬ check other) ∧ First checks e := by
  constructor
  · rintro ⟨before, found, after, h, hfound, hbefore⟩
    cases before with
    | nil =>
      obtain ⟨rfl, rfl⟩ := List.cons.inj h
      exact .inl hfound
    | cons first before =>
      obtain ⟨rfl, rfl⟩ := List.cons.inj h
      obtain ⟨hfirst, hbefore⟩ := List.forall_mem_cons.mp hbefore
      exact .inr ⟨hfirst, before, found, after, rfl, hfound, hbefore⟩
  · rintro (h | ⟨hfirst, before, found, after, rfl, hfound, hbefore⟩)
    · exact ⟨[], check, checks, rfl, h, by simp⟩
    · exact ⟨check :: before, found, after, rfl, hfound, List.forall_mem_cons.mpr ⟨hfirst, hbefore⟩⟩

theorem exists_first_iff : (∃ e, First checks e) ↔ ∃ check ∈ checks, ∃ e, check e := by
  induction checks with
  | nil => simp [not_first_nil]
  | cons check checks ih =>
    simp only [first_cons_iff, exists_or, exists_and_left, ih, List.exists_mem_cons_iff]
    by_cases h : ∃ e, check e
    · simp [h]
    · simp [not_exists.mp h]

theorem first_append_iff :
    First (checks ++ more) e ↔
      First checks e ∨ (∀ other, ¬ First checks other) ∧ First more e := by
  induction checks with
  | nil => simp [not_first_nil]
  | cons check checks ih =>
    simp only [List.cons_append, first_cons_iff, ih]
    by_cases h : ∃ other, check other
    · simp [not_forall_not.mpr h]
    · simp [not_exists.mp h]

namespace Decide

variable {x : Except Error α} {f : α → Except Error β}

theorem of_iff (h : ∀ e, x = .error e ↔ check e) : Decide [check] x := by
  intro e
  simp [h, first_cons_iff, not_first_nil]

theorem ok (a : α) : Decide [] (.ok a : Except Error α) := by
  intro e
  simp [not_first_nil]

theorem of_ok {a : α} (h : Decide checks (.ok a : Except Error α)) (b : β) :
    Decide checks (.ok b : Except Error β) :=
  fun e => iff_of_false nofun fun hfirst => by cases (h e).mpr hfirst

theorem bind (hx : Decide checks x) (hf : ∀ a, x = .ok a → Decide more (f a)) :
    Decide (checks ++ more) (x >>= f) := by
  intro e
  rw [first_append_iff, ← hx e]
  cases x with
  | error found =>
    have hfound : ¬ ∀ other, ¬ First checks other := fun h => h found ((hx found).mp rfl)
    simp [hfound]
  | ok a =>
    have hnone : ∀ other, ¬ First checks other := fun other h => by cases (hx other).mpr h
    simp [hnone, hf a rfl e]

theorem bind_ok (hx : Decide checks x) (f : α → β) :
    Decide checks (x >>= fun a => .ok (f a)) := by
  have h := hx.bind fun a _ => Decide.ok (f a)
  rwa [List.append_nil] at h

theorem when {p : Prop} (hp : p) (h : Decide checks x) : Decide (checks.map (Check.when p)) x := by
  have hwhen : Check.when p = id := by
    funext check e
    simp [Check.when, hp]
  rwa [hwhen, List.map_id]

theorem of_not {p : Prop} (hp : ¬ p) (checks : List Check) (a : α) :
    Decide (checks.map (Check.when p)) (.ok a : Except Error α) := by
  intro e
  refine iff_of_false nofun fun h => ?_
  obtain ⟨_, hcheck, other, hother⟩ := exists_first_iff.mp ⟨e, h⟩
  obtain ⟨check, -, rfl⟩ := List.mem_map.mp hcheck
  exact hp hother.1

end Decide

end Check

def Extension.kind : Extension → ValueKind
  | .instructionSets | .ruleCollections => .mapping
  | .pathInstructions => .list

def Extension.wanted : Extension → Wanted
  | .instructionSets | .ruleCollections => .map
  | .pathInstructions => .sequence

def Container.kind : Container → ValueKind
  | .reviews | .tools | .astGrep => .mapping
  | .pathInstructions | .packages | .ruleDirs => .list

namespace Fragment

variable (fragment : Fragment)

def place? (c : Container) : Option Value :=
  Value.set? ((Value.mapping fragment).at? (c.holders ++ [c.key]))

def collections : Fragment :=
  match fragment.extension? .ruleCollections with
  | some (.mapping collections) => collections
  | _ => []

def WrongExtension (field : Extension) : Check := fun e =>
  ∃ v, fragment.extension? field = some v ∧ ValueKind.of v ≠ field.kind ∧
    e = .extension field (.invalidType (.of v) field.wanted)

def WrongPlace (c : Container) : Check := fun e =>
  ∃ v, fragment.place? c = some v ∧ ValueKind.of v ≠ c.kind ∧ e = .shape c

def WrongCollection (entry : String × Value) : Check := fun e =>
  ∃ cause, RuleCollection.decode entry.2 = .error cause ∧ e = .extension .ruleCollections cause

def pathChecks : List Check :=
  [fragment.WrongExtension .instructionSets, fragment.WrongExtension .pathInstructions,
    fragment.WrongPlace .reviews, fragment.WrongPlace .pathInstructions]

def collectionChecks : List Check :=
  [fragment.WrongExtension .ruleCollections, fragment.WrongPlace .reviews,
    fragment.WrongPlace .tools, fragment.WrongPlace .astGrep, fragment.WrongPlace .packages,
    fragment.WrongPlace .ruleDirs] ++ fragment.collections.map WrongCollection

def checks : List Check :=
  fragment.pathChecks.map (Check.when fragment.LowersPaths) ++
    fragment.collectionChecks.map (Check.when fragment.LowersCollections)

end Fragment

namespace Fragment

open Check Expand

variable {fragment : Fragment}

/-- The mapping around a place has there what the fragment has. -/
def Shows (fragment : Fragment) (c : Container) (outer : Fragment) : Prop :=
  fragment.place? c = Value.set? (outer.get? c.key)

theorem shows_withoutExtensions (fragment : Fragment) :
    fragment.Shows .reviews fragment.withoutExtensions := by
  rw [Shows, get?_withoutExtensions Extension.key_ne_reviews]
  simp [place?, Container.holders, Value.at?, Value.get?]

theorem get?_of_set?_eq_none {found : Option Value} (h : Value.set? found = none) (key : String) :
    (found.bind fun v => v.get? key) = none := by
  cases found with
  | none => rfl
  | some v => cases v <;> first | rfl | cases h

theorem eq_of_set?_eq_some {found : Option Value} {v : Value} (h : Value.set? found = some v) :
    found = some v := by
  cases found with
  | none => cases h
  | some v => cases v <;> first | exact h | cases h

theorem Shows.below {c d : Container} {outer inner : Fragment} (h : fragment.Shows c outer)
    (hinner : c.mapping outer = .ok inner) (hholders : d.holders = c.holders ++ [c.key]) :
    fragment.Shows d inner := by
  rw [Shows, place?] at h
  rw [Shows, place?, hholders, Value.at?_concat]
  rcases Container.mapping_eq_ok_iff.mp hinner with ⟨hunset, rfl⟩ | hset
  · rw [get?_of_set?_eq_none (h.trans hunset), get?_nil]
  · rw [hset] at h
    rw [eq_of_set?_eq_some h]
    rfl

section

variable {c : Container} {outer : Fragment}

theorem Shows.decide_mapping (h : fragment.Shows c outer) (hkind : c.kind = .mapping) :
    Decide [fragment.WrongPlace c] (c.mapping outer) := by
  apply Decide.of_iff
  intro e
  rw [Container.mapping, WrongPlace, h, hkind]
  cases Value.set? (outer.get? c.key) with
  | none => simp
  | some v => cases v <;> simp [ValueKind.of, eq_comm]

theorem Shows.decide_list (h : fragment.Shows c outer) (hkind : c.kind = .list) :
    Decide [fragment.WrongPlace c] (c.list outer) := by
  apply Decide.of_iff
  intro e
  rw [Container.list, WrongPlace, h, hkind]
  cases Value.set? (outer.get? c.key) with
  | none => simp
  | some v => cases v <;> simp [ValueKind.of, eq_comm]

theorem decide_within {work : Stage} {checks : List Check}
    (h : Decide [fragment.WrongPlace c] (c.mapping outer))
    (hwork : ∀ inner, c.mapping outer = .ok inner → Decide checks (work inner).value) :
    Decide (fragment.WrongPlace c :: checks) (c.within work outer).value := by
  rw [Container.value_within]
  exact h.bind fun inner hinner => (hwork inner hinner).bind_ok _

end

section

variable {field : Extension} {v : Value} (h : fragment.extension? field = some v)
include h

theorem decide_decodeMapping (hkind : field.kind = .mapping) (hwanted : field.wanted = .map) :
    Decide [fragment.WrongExtension field] (decodeMapping field v) := by
  apply Decide.of_iff
  intro e
  cases v <;> simp [decodeMapping, WrongExtension, h, hkind, hwanted, ValueKind.of, eq_comm]

theorem decide_decodeList (hkind : field.kind = .list) (hwanted : field.wanted = .sequence) :
    Decide [fragment.WrongExtension field] (decodeList field v) := by
  apply Decide.of_iff
  intro e
  cases v <;> simp [decodeList, WrongExtension, h, hkind, hwanted, ValueKind.of, eq_comm]

end

theorem decide_collectPackages (collections : Fragment) :
    Decide (collections.map WrongCollection) (collectPackages collections).value := by
  induction collections with
  | nil => exact .ok []
  | cons entry rest ih =>
    obtain ⟨name, v⟩ := entry
    rw [value_collectPackages_cons]
    refine Decide.bind (.of_iff fun e => ?_) fun collection _ => ih.bind_ok _
    rw [WrongCollection]
    cases RuleCollection.decode v <;> simp [Except.mapError, eq_comm]

theorem Shows.decide_append {reviews : Fragment} (h : fragment.Shows .pathInstructions reviews)
    (sets : Fragment) (entries : List Value) :
    Decide [fragment.WrongPlace .pathInstructions]
      (appendPathInstructions sets entries reviews).value := by
  simp only [appendPathInstructions, Attempt.value_bind, Attempt.value_ofExcept]
  exact (h.decide_list rfl).bind_ok _

theorem Shows.decide_add {reviews : Fragment} (h : fragment.Shows .tools reviews)
    (collections : Fragment) :
    Decide ([fragment.WrongPlace .tools, fragment.WrongPlace .astGrep,
        fragment.WrongPlace .packages, fragment.WrongPlace .ruleDirs] ++
        collections.map WrongCollection)
      (addPackages collections reviews).value := by
  refine decide_within (h.decide_mapping rfl) fun tools htools => ?_
  have h := h.below htools (d := .astGrep) rfl
  refine decide_within (h.decide_mapping rfl) fun astGrep hastGrep => ?_
  have hpackages := h.below hastGrep (d := .packages) rfl
  have hruleDirs := h.below hastGrep (d := .ruleDirs) rfl
  simp only [takePackages, Attempt.value_bind, Attempt.value_ofExcept, Attempt.value_pure]
  exact (hpackages.decide_list rfl).bind fun _ _ => (hruleDirs.decide_list rfl).bind fun _ _ =>
    (decide_collectPackages collections).bind_ok _

theorem decide_lowerPaths {config : Fragment} (h : fragment.Shows .reviews config) :
    Decide (fragment.pathChecks.map (Check.when fragment.LowersPaths))
      (fragment.lowerPaths config).value := by
  by_cases hlowers : fragment.LowersPaths
  · refine .when hlowers ?_
    obtain ⟨sets, hsets⟩ := Option.isSome_iff_exists.mp hlowers.1
    obtain ⟨entries, hentries⟩ := Option.isSome_iff_exists.mp hlowers.2
    simp only [lowerPaths, hsets, hentries, Attempt.value_bind, Attempt.value_ofExcept]
    refine (decide_decodeMapping hsets rfl rfl).bind fun sets _ =>
      (decide_decodeList hentries rfl rfl).bind fun entries _ =>
        decide_within (h.decide_mapping rfl) fun reviews hreviews => ?_
    exact (h.below hreviews rfl).decide_append sets entries
  · rw [lowerPaths_eq_run, pathPlan_eq_none_iff.mpr hlowers]
    exact .of_not hlowers _ config

theorem decide_lowerCollections {config : Fragment}
    (hreviews : Decide [fragment.WrongPlace .reviews] (Container.reviews.mapping config))
    (htools : ∀ reviews, Container.reviews.mapping config = .ok reviews →
      fragment.Shows .tools reviews) :
    Decide (fragment.collectionChecks.map (Check.when fragment.LowersCollections))
      (fragment.lowerCollections config).value := by
  by_cases hlowers : fragment.LowersCollections
  · refine .when hlowers ?_
    obtain ⟨v, hv⟩ := Option.isSome_iff_exists.mp hlowers
    simp only [lowerCollections, hv, Attempt.value_bind, Attempt.value_ofExcept]
    refine (decide_decodeMapping hv rfl rfl).bind fun collections hcollections => ?_
    have hmembers : fragment.collections = collections := by
      cases v <;> cases hcollections
      rw [Fragment.collections, hv]
    rw [hmembers]
    exact decide_within hreviews fun reviews h => (htools reviews h).decide_add collections
  · rw [lowerCollections_eq_run, collectionPlan_eq_none_iff.mpr hlowers]
    exact .of_not hlowers _ config

/-- The lowering of path instructions does not change what the other one is refused for. -/
theorem shows_lowerPaths {config : Fragment}
    (h : (fragment.lowerPaths fragment.withoutExtensions).value = .ok config) :
    Decide [fragment.WrongPlace .reviews] (Container.reviews.mapping config) ∧
      ∀ reviews, Container.reviews.mapping config = .ok reviews →
        fragment.Shows .tools reviews := by
  have hshows := shows_withoutExtensions fragment
  rw [lowerPaths_eq_run] at h
  rcases within_reviews_paths h with ⟨_, hwithin⟩ | ⟨_, rfl⟩
  · obtain ⟨old, new, hold, hnew, hframe⟩ := hwithin.inside
    have hold : Container.reviews.mapping _ = .ok old := Container.mapping_eq_ok_iff.mpr hold
    have hnew : Container.reviews.mapping config = .ok new :=
      Container.mapping_eq_ok_iff.mpr (.inr hnew)
    have hdecide := hshows.decide_mapping rfl
    rw [hold] at hdecide
    rw [hnew]
    refine ⟨hdecide.of_ok new, fun reviews hreviews => ?_⟩
    obtain rfl := Except.ok.inj hreviews
    rw [Shows, hframe.changes.get?_eq (by decide)]
    exact hshows.below hold rfl
  · exact ⟨hshows.decide_mapping rfl, fun reviews hreviews => hshows.below hreviews rfl⟩

/-- Expanding fails when a check finds something, and with what the first that does finds. -/
theorem expand_eq_error_iff (fragment : Fragment) :
    ((∃ e, fragment.expand.value = .error e) ↔ ∃ check ∈ fragment.checks, ∃ e, check e) ∧
      ∀ e, fragment.expand.value = .error e ↔ Check.First fragment.checks e := by
  have hdecide : Decide fragment.checks fragment.expand.value := by
    rw [expand_eq, Attempt.value_bind]
    refine (decide_lowerPaths (shows_withoutExtensions fragment)).bind fun config hconfig => ?_
    obtain ⟨hreviews, htools⟩ := shows_lowerPaths hconfig
    exact decide_lowerCollections hreviews htools
  exact ⟨(exists_congr hdecide).trans exists_first_iff, hdecide⟩

end Fragment
end FlatConfig
