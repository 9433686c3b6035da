import FlatConfig.Proofs.Invocations
import FlatConfig.Proofs.Resolve

set_option autoImplicit false

namespace FlatConfig

namespace Fragment

/-- A version is present and no number; null is none either. -/
def WrongVersion (fragment : Fragment) : Prop :=
  ∃ v, get? fragment "version" = some v ∧ ∀ n, v ≠ .number n

theorem not_wrongVersion_iff {fragment : Fragment} :
    ¬ fragment.WrongVersion ↔ fragment.validate = .ok () := by
  simp [WrongVersion, validate_eq_ok]

theorem validate_of_wrongVersion {fragment : Fragment} (h : fragment.WrongVersion) :
    fragment.validate = .error .version := by
  obtain ⟨v, hv, hn⟩ := h
  rw [validate, hv]
  cases v with
  | number n => exact absurd rfl (hn n)
  | _ => rfl

theorem forM_validate_of_wrongVersion {fragments : List Fragment}
    (h : ∃ f ∈ fragments, f.WrongVersion) : forM fragments validate = .error .version := by
  induction fragments with
  | nil => simp at h
  | cons f rest ih =>
    rw [List.forM_cons]
    by_cases hf : f.WrongVersion
    · rw [validate_of_wrongVersion hf, error_bind]
    · rw [not_wrongVersion_iff.mp hf, ok_bind]
      exact ih (by simpa [hf] using h)

end Fragment

inductive Error.OfExpansion : Error → Prop where
  | shape (c : Container) : OfExpansion (.shape c)
  | extension (field : Extension) (cause : DecodeError) : OfExpansion (.extension field cause)

theorem Error.OfExpansion.isInvalidConfig {e : Error} (h : e.OfExpansion) :
    e.isInvalidConfig = false := by
  cases h <;> rfl

open Attempt (FailsWith)

namespace Container

theorem mapping_error {c : Container} {outer : Fragment} {e : Error}
    (h : c.mapping outer = .error e) : e.OfExpansion := by
  unfold mapping at h
  split at h <;> cases h
  exact .shape c

theorem list_error {c : Container} {outer : Fragment} {e : Error}
    (h : c.list outer = .error e) : e.OfExpansion := by
  unfold list at h
  split at h <;> cases h
  exact .shape c

theorem failsWith_within {c : Container} {work : Fragment → Attempt Fragment}
    (h : ∀ inner, FailsWith Error.OfExpansion (work inner)) (outer : Fragment) :
    FailsWith Error.OfExpansion (c.within work outer) :=
  .bind (.ofExcept fun _ => mapping_error) fun inner => .bind (h inner) fun _ => .pure _

end Container

namespace Expand

theorem decodeMapping_error {field : Extension} {v : Value} {e : Error}
    (h : decodeMapping field v = .error e) : e.OfExpansion := by
  cases v <;> cases h <;> exact .extension _ _

theorem decodeList_error {field : Extension} {v : Value} {e : Error}
    (h : decodeList field v = .error e) : e.OfExpansion := by
  cases v <;> cases h <;> exact .extension _ _

theorem failsWith_lowerPathInstructions (sets : Fragment) (entries : List Value)
    (config : Fragment) :
    FailsWith Error.OfExpansion (lowerPathInstructions sets entries config) := by
  apply Container.failsWith_within
  intro reviews
  exact .bind (.ofExcept fun _ => Container.list_error) fun _ => .bind (.lift _) fun _ => .pure _

theorem failsWith_collectPackages (collections : Fragment) :
    FailsWith Error.OfExpansion (collectPackages collections) := by
  induction collections with
  | nil => exact .pure _
  | cons entry rest ih =>
    obtain ⟨name, v⟩ := entry
    refine .bind (.ofExcept fun e h => ?_) fun _ =>
      .bind (.lift _) fun _ => .bind ih fun _ => .pure _
    cases hd : RuleCollection.decode v <;> rw [hd] at h <;> cases h
    exact .extension _ _

theorem failsWith_lowerRuleCollections (collections config : Fragment) :
    FailsWith Error.OfExpansion (lowerRuleCollections collections config) := by
  apply Container.failsWith_within
  apply Container.failsWith_within
  apply Container.failsWith_within
  intro astGrep
  exact .bind (.ofExcept fun _ => Container.list_error) fun _ =>
    .bind (.ofExcept fun _ => Container.list_error) fun _ =>
      .bind (failsWith_collectPackages collections) fun _ => .pure _

end Expand

namespace Fragment

theorem failsWith_lowerPaths (fragment config : Fragment) :
    FailsWith Error.OfExpansion (fragment.lowerPaths config) := by
  unfold lowerPaths
  split
  · exact .bind (.ofExcept fun _ => Expand.decodeMapping_error) fun sets =>
      .bind (.ofExcept fun _ => Expand.decodeList_error) fun entries =>
        Expand.failsWith_lowerPathInstructions sets entries config
  · exact .pure _

theorem failsWith_lowerCollections (fragment config : Fragment) :
    FailsWith Error.OfExpansion (fragment.lowerCollections config) := by
  unfold lowerCollections
  split
  · exact .bind (.ofExcept fun _ => Expand.decodeMapping_error) fun collections =>
      Expand.failsWith_lowerRuleCollections collections config
  · exact .pure _

theorem failsWith_expand (fragment : Fragment) :
    FailsWith Error.OfExpansion fragment.expand := by
  rw [expand_eq]
  exact .bind (failsWith_lowerPaths fragment _) (failsWith_lowerCollections fragment)

end Fragment

namespace Item

theorem value_resolve_of_failure {item : Item} {env : Environment} {failure : Failure}
    (h : Visit.firstFailure? env (item.visits env) = some failure) :
    (item.resolve env).value = .error (.ofFailure failure) := by
  rw [value_resolve, value_flatten_eq_outcome, Visit.outcome, h, error_bind]

section

variable {item : Item} {env : Environment}
  (h : Visit.firstFailure? env (item.visits env) = none)

include h

theorem value_resolve_of_wrongVersion
    (hw : ∃ f ∈ Visit.fragments (item.visits env), f.WrongVersion) :
    (item.resolve env).value = .error .version := by
  rw [value_resolve, value_flatten_eq_outcome, Visit.outcome, h, ok_bind,
    Fragment.forM_validate_of_wrongVersion hw, error_bind]

theorem value_resolve_of_versions
    (hv : ∀ f ∈ Visit.fragments (item.visits env), ¬ f.WrongVersion) :
    (item.resolve env).value =
      (Fragment.mergeAll (Visit.fragments (item.visits env))).expand.value := by
  have hvalid := forM_eq_ok.mpr fun f hf => Fragment.not_wrongVersion_iff.mp (hv f hf)
  rw [value_resolve, value_flatten_eq_outcome, Visit.outcome, h, ok_bind, hvalid, ok_bind]

end

def IsRejected (item : Item) (env : Environment) : Prop :=
  ∃ e, (item.resolve env).value = .error e ∧ e.isInvalidConfig = true

/-- Without failing functions, an item is rejected for the version of some fragment only. -/
theorem isRejected_iff {item : Item} {env : Environment}
    (h : Visit.firstFailure? env (item.visits env) = none) :
    item.IsRejected env ↔ ∃ f ∈ Visit.fragments (item.visits env), f.WrongVersion := by
  constructor
  · rintro ⟨e, he, hinvalid⟩
    by_contra hw
    push Not at hw
    rw [value_resolve_of_versions h hw] at he
    have hfalse := (Fragment.failsWith_expand _ e he).isInvalidConfig
    simp [hinvalid] at hfalse
  · intro hw
    exact ⟨.version, value_resolve_of_wrongVersion h hw, rfl⟩

def FunctionFree (item : Item) : Prop := ∀ leaf ∈ item.leaves, ∃ f, leaf = .fragment f

theorem visits_eq_flatMap_leaves (env : Environment) (item : Item) :
    item.visits env = item.leaves.flatMap (visits env) := by
  induction item using induction_in env with
  | fragment f => simp [leaves, visits]
  | function name body => simp [leaves]
  | list items ih =>
    rw [visits, leaves]
    induction items with
    | nil => rfl
    | cons item rest ihrest =>
      rw [visitsOf, leavesOf, List.flatMap_append, ← ih item (by simp),
        ihrest fun i hi => ih i (by simp [hi])]

theorem FunctionFree.firstFailure? {item : Item} (h : item.FunctionFree) (env : Environment) :
    Visit.firstFailure? env (item.visits env) = none := by
  apply List.findSome?_eq_none_iff.mpr
  intro visit hvisit
  rw [visits_eq_flatMap_leaves] at hvisit
  obtain ⟨leaf, hleaf, hvisit⟩ := List.mem_flatMap.mp hvisit
  obtain ⟨f, rfl⟩ := h leaf hleaf
  obtain rfl := List.mem_singleton.mp hvisit
  rfl

theorem perm_fragments_visits {a b : Item} (h : a.leaves.Perm b.leaves) (env : Environment) :
    (Visit.fragments (a.visits env)).Perm (Visit.fragments (b.visits env)) := by
  rw [visits_eq_flatMap_leaves, visits_eq_flatMap_leaves env b]
  exact (h.flatMap_right _).filterMap _

theorem FunctionFree.of_perm {a b : Item} (h : a.FunctionFree) (hp : a.leaves.Perm b.leaves) :
    b.FunctionFree := fun leaf hleaf => h leaf (hp.mem_iff.mpr hleaf)

theorem isRejected_congr {a b : Item} (h : a.FunctionFree) (hp : a.leaves.Perm b.leaves)
    (env : Environment) : a.IsRejected env ↔ b.IsRejected env := by
  rw [isRejected_iff (h.firstFailure? env), isRejected_iff ((h.of_perm hp).firstFailure? env)]
  simp only [(perm_fragments_visits hp env).mem_iff]

/-- Failures of functions come first, then wrong versions of any fragment, then expansion. -/
theorem resolve_stages (item : Item) (env : Environment) :
    (∀ failure, Visit.firstFailure? env (item.visits env) = some failure →
      (item.resolve env).value = .error (.ofFailure failure)) ∧
    (Visit.firstFailure? env (item.visits env) = none →
      (∃ f ∈ Visit.fragments (item.visits env), f.WrongVersion) →
      (item.resolve env).value = .error .version ∧ Error.version.isInvalidConfig = true ∧
        Error.version.message? = some "Version must be a number") ∧
    (Visit.firstFailure? env (item.visits env) = none →
      (∀ f ∈ Visit.fragments (item.visits env), ¬ f.WrongVersion) →
      (item.resolve env).value =
          (Fragment.mergeAll (Visit.fragments (item.visits env))).expand.value ∧
        ∀ e, (item.resolve env).value = .error e →
          (∃ c, e = .shape c) ∨ ∃ field cause, e = .extension field cause) ∧
    (∀ other : Item, item.FunctionFree → item.leaves.Perm other.leaves →
      (item.IsRejected env ↔ other.IsRejected env)) ∧
    ∀ result, (item.resolve env).value = .ok result →
      ∀ v, Fragment.get? result "version" = some v → ∃ n, v = .number n := by
  refine ⟨fun _ h => value_resolve_of_failure h, ?_, ?_, ?_, ?_⟩
  · intro h hw
    exact ⟨value_resolve_of_wrongVersion h hw, rfl, rfl⟩
  · intro h hv
    have hvalue := value_resolve_of_versions h hv
    refine ⟨hvalue, ?_⟩
    intro e he
    rw [hvalue] at he
    cases Fragment.failsWith_expand _ e he with
    | shape c => exact .inl ⟨c, rfl⟩
    | extension field cause => exact .inr ⟨field, cause, rfl⟩
  · intro other h hp
    exact isRejected_congr h hp env
  · intro result h
    exact Fragment.validate_eq_ok.mp (isResolved_of_resolve h).valid

def numbered : Item :=
  .fragment [("version", .number (.integer 2)), ("rule_collections", .string "all")]

def released : Fragment := [("version", .number (.integer 2))]

def unnumbered : Item := .fragment [("version", .null)]

def unreachable : Item := .function "remote" fun _ => pure (.error (.raised "no network"))

def collected : Item := .function "collect" fun _ => pure (.ok (.list [numbered]))

theorem resolve_stages_in_order :
    (Visit.firstFailure? [] (visits [] (.list [numbered, unnumbered, unreachable])) =
        some (.raised "no network") ∧
      (resolve (.list [numbered, unnumbered, unreachable]) []).value =
        .error (.raised "no network")) ∧
    (resolve (.list [collected, unnumbered]) []).value = .error .version ∧
    (resolve collected []).value =
      .error (.extension .ruleCollections (.invalidType (.string "all") .map)) ∧
    (IsRejected (.list [numbered, unnumbered]) [] ∧
      IsRejected (.list [.list [unnumbered], numbered]) []) ∧
    (resolve (.fragment released) []).value = .ok released ∧
      ∀ v, Fragment.get? released "version" = some v → ∃ n, v = .number n := by
  have hwrong : ∃ f ∈ Visit.fragments (visits [] (.list [collected, unnumbered])),
      f.WrongVersion :=
    ⟨[("version", .null)], .tail _ (.head _), .null, rfl, by simp⟩
  have hfree : FunctionFree (.list [numbered, unnumbered]) := by
    simp [FunctionFree, leaves, leavesOf, numbered, unnumbered]
  have hperm : (leaves (.list [numbered, unnumbered])).Perm
      (leaves (.list [.list [unnumbered], numbered])) := .swap _ _ _
  have hrejected : IsRejected (.list [numbered, unnumbered]) [] := ⟨.version, rfl, rfl⟩
  have hversions : ∀ f ∈ Visit.fragments (collected.visits []), ¬ f.WrongVersion := by
    intro f hf
    obtain rfl := List.mem_singleton.mp hf
    exact Fragment.not_wrongVersion_iff.mpr rfl
  refine ⟨⟨rfl, (resolve_stages _ []).1 (.raised "no network") rfl⟩, ?_, ?_,
    ⟨hrejected, ?_⟩, rfl, ?_⟩
  · exact ((resolve_stages _ []).2.1 rfl hwrong).1
  · rw [((resolve_stages collected []).2.2.1 rfl hversions).1]
    rfl
  · exact ((resolve_stages _ []).2.2.2.1 _ hfree hperm).mp hrejected
  · exact (resolve_stages (.fragment released) []).2.2.2.2 released rfl

end Item
end FlatConfig
