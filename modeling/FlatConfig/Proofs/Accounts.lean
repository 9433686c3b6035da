import FlatConfig.Proofs.Checks
import FlatConfig.Proofs.PathInstructions

set_option autoImplicit false

namespace FlatConfig

namespace Attempt

variable {α β : Type}

@[simp] theorem log_ofExcept (result : Except Error α) : log (ofExcept result) = [] := rfl

@[simp] theorem log_lift (x : Logged α) : log (ExceptT.lift x) = x.log := by
  rw [log, ExceptT.run_lift, map_eq_pure_bind, Logged.log_bind, Logged.log_pure, List.append_nil]

def Reports (p : Event → Prop) (x : Attempt α) : Prop := ∀ event ∈ log x, p event

namespace Reports

variable {p : Event → Prop}

theorem of_log_eq_nil {x : Attempt α} (h : log x = []) : Reports p x := by
  intro event hevent
  rw [h] at hevent
  cases hevent

theorem bind {x : Attempt α} {f : α → Attempt β} (hx : Reports p x) (hf : ∀ a, Reports p (f a)) :
    Reports p (x >>= f) := by
  intro event hevent
  cases h : value x with
  | error e =>
    rw [log_bind_error h] at hevent
    exact hx event hevent
  | ok a =>
    rw [log_bind_ok h] at hevent
    exact (List.mem_append.mp hevent).elim (hx event) (hf a event)

theorem within {work : Fragment → Attempt Fragment} (h : ∀ inner, Reports p (work inner))
    (c : Container) (outer : Fragment) : Reports p (c.within work outer) :=
  .bind (.of_log_eq_nil rfl) fun inner => .bind (h inner) fun _ => .of_log_eq_nil rfl

end Reports
end Attempt

theorem Container.log_within {c : Container} {work : Fragment → Attempt Fragment}
    {outer inner : Fragment} (h : c.mapping outer = .ok inner) :
    (c.within work outer).log = (work inner).log := by
  have hinner : (Attempt.ofExcept (c.mapping outer)).value = .ok inner := h
  rw [within, Attempt.log_bind_ok hinner, Attempt.log_ofExcept, List.nil_append]
  cases hwork : (work inner).value with
  | error e => rw [Attempt.log_bind_error hwork]
  | ok after => rw [Attempt.log_bind_ok hwork, Attempt.log_pure, List.append_nil]

namespace Expand

open Attempt

theorem reports_collectPackages (collections : Fragment) :
    Reports (fun event => ∃ name rules, event = .ruleCollection name rules)
      (collectPackages collections) := by
  induction collections with
  | nil => exact .of_log_eq_nil rfl
  | cons entry rest ih =>
    obtain ⟨name, v⟩ := entry
    refine .bind (.of_log_eq_nil rfl) fun collection => .bind ?_ fun _ =>
      .bind ih fun _ => .of_log_eq_nil rfl
    intro event hevent
    exact ⟨name, collection.rules.length, List.mem_singleton.mp hevent⟩

theorem reports_lowerRuleCollections (collections config : Fragment) :
    Reports (fun event => ∃ name rules, event = .ruleCollection name rules)
      (lowerRuleCollections collections config) := by
  refine .within (fun _ => .within (fun _ => .within (fun _ => ?_) _ _) _ _) _ config
  exact .bind (.of_log_eq_nil rfl) fun _ => .bind (.of_log_eq_nil rfl) fun _ =>
    .bind (reports_collectPackages collections) fun _ => .of_log_eq_nil rfl

/-- What is appended for an entry, and what is reported. -/
inductive Handled (sets : Fragment) (entry : Value) : Option Value → List Event → Prop where
  | appended {v : Value} {conditions : List String} (h : Becomes sets entry v) :
      Handled sets entry (some v) (conditions.map .nestedBlock)
  | malformed {e : DecodeError} (h : PathInstruction.decode entry = .error e) :
      Handled sets entry none [.malformedPathInstruction e]
  | unknown {path : String} {r : InstructionRef}
      (hentry : PathInstruction.decode entry = .ok ⟨path, .reference r⟩)
      (h : sets.get? r.set = none) :
      Handled sets entry none [.unknownInstructionSet path r.set]
  | ignored {path : String} {r : InstructionRef} {v : Value} {e : DecodeError}
      (hentry : PathInstruction.decode entry = .ok ⟨path, .reference r⟩)
      (hv : sets.get? r.set = some v) (h : InstructionSet.decode v = .error e) :
      Handled sets entry none
        [.malformedInstructionSet r.set e, .unknownInstructionSet path r.set]

theorem handled_lowerEntry (sets : Fragment) (entry : Value) :
    Handled sets entry (lowerEntry sets entry).value (lowerEntry sets entry).log := by
  rw [lowerEntry]
  cases hentry : PathInstruction.decode entry with
  | error e => exact .malformed hentry
  | ok instruction =>
    obtain ⟨path, source⟩ := instruction
    cases source with
    | text s =>
      show Handled sets entry (some (lowered path s)) ([].map .nestedBlock)
      exact .appended (.inline hentry)
    | reference r =>
      cases hv : sets.get? r.set with
      | none =>
        have hfound : findSet sets r.set = pure none := by rw [findSet, hv]
        simp only [hfound]
        exact .unknown hentry hv
      | some v =>
        cases hset : InstructionSet.decode v with
        | error e =>
          have hfound : findSet sets r.set = ⟨[.malformedInstructionSet r.set e], none⟩ := by
            simp only [findSet, hv, hset]
          simp only [hfound]
          exact .ignored hentry hv hset
        | ok set =>
          have hfound : findSet sets r.set = pure (some set) := by simp only [findSet, hv, hset]
          simp only [hfound]
          exact .appended (.reference hentry hv hset)

def countMessage (message : String) (log : List Event) : Nat :=
  log.countP (·.message == message)

theorem countMessage_append (message : String) (before after : List Event) :
    countMessage message (before ++ after) =
      countMessage message before + countMessage message after :=
  List.countP_append

theorem countMessage_eq_zero {message : String} {log : List Event}
    (h : ∀ event ∈ log, event.message ≠ message) : countMessage message log = 0 :=
  List.countP_eq_zero.mpr (by simpa using h)

def RefersToMalformed (sets : Fragment) (entry : Value) (path set : String) (e : DecodeError) :
    Prop :=
  ∃ parameters v, PathInstruction.decode entry = .ok ⟨path, .reference ⟨set, parameters⟩⟩ ∧
    sets.get? set = some v ∧ InstructionSet.decode v = .error e

structure Accounted (sets : Fragment) (entry : Value) (step : Logged (Option Value)) : Prop where
  handled : Handled sets entry step.value step.log
  once : step.value.toList.length +
    countMessage "Skipping malformed path instruction" step.log +
    countMessage "Skipping path instruction with unknown instruction set" step.log = 1
  fields : ∀ event ∈ step.log,
    event.message = "Skipping path instruction with unknown instruction set" →
      ∃ path r, PathInstruction.decode entry = .ok ⟨path, .reference r⟩ ∧
        event.fields = [("path", path), ("instruction_set", r.set)]
  ignored_iff : (∃ event ∈ step.log, event.message = "Ignoring malformed instruction set") ↔
    ∃ path set e, RefersToMalformed sets entry path set e
  ignored : ∀ {path set e}, RefersToMalformed sets entry path set e →
    step.log = [.malformedInstructionSet set e, .unknownInstructionSet path set]

theorem message_of_mem_nestedBlock {conditions : List String} {event : Event}
    (h : event ∈ conditions.map Event.nestedBlock) :
    event.message = "Nested conditional blocks are not supported" := by
  obtain ⟨condition, -, rfl⟩ := List.mem_map.mp h
  rfl

theorem countMessage_nestedBlock {message : String}
    (h : message ≠ "Nested conditional blocks are not supported") (conditions : List String) :
    countMessage message (conditions.map .nestedBlock) = 0 :=
  countMessage_eq_zero fun _ hevent =>
    (message_of_mem_nestedBlock hevent).trans_ne (Ne.symm h)

theorem Handled.once {sets : Fragment} {entry : Value} {value : Option Value} {log : List Event}
    (h : Handled sets entry value log) :
    value.toList.length + countMessage "Skipping malformed path instruction" log +
      countMessage "Skipping path instruction with unknown instruction set" log = 1 := by
  cases h with
  | appended h =>
    rw [countMessage_nestedBlock (by decide), countMessage_nestedBlock (by decide)]
    rfl
  | _ => rfl

theorem Handled.fields {sets : Fragment} {entry : Value} {value : Option Value} {log : List Event}
    (h : Handled sets entry value log) {event : Event} (hevent : event ∈ log)
    (hmessage : event.message = "Skipping path instruction with unknown instruction set") :
    ∃ path r, PathInstruction.decode entry = .ok ⟨path, .reference r⟩ ∧
      event.fields = [("path", path), ("instruction_set", r.set)] := by
  cases h with
  | appended h =>
    rw [message_of_mem_nestedBlock hevent] at hmessage
    exact absurd hmessage (by decide)
  | malformed h =>
    obtain rfl := List.mem_singleton.mp hevent
    simp [Event.message] at hmessage
  | @unknown path r hentry h =>
    obtain rfl := List.mem_singleton.mp hevent
    exact ⟨path, r, hentry, rfl⟩
  | @ignored path r v e hentry hv h =>
    rcases List.mem_pair.mp hevent with rfl | rfl
    · simp [Event.message] at hmessage
    · exact ⟨path, r, hentry, rfl⟩

theorem Handled.log_ignored {sets : Fragment} {entry : Value} {value : Option Value}
    {log : List Event} (h : Handled sets entry value log) {path set : String} {e : DecodeError}
    (hrefers : RefersToMalformed sets entry path set e) :
    log = [.malformedInstructionSet set e, .unknownInstructionSet path set] := by
  obtain ⟨parameters, v, hentry, hv, he⟩ := hrefers
  cases h with
  | appended h =>
    cases h with
    | inline h => cases hentry.symm.trans h
    | reference h hget hset =>
      cases hentry.symm.trans h
      cases hv.symm.trans hget
      cases he.symm.trans hset
  | malformed h => cases hentry.symm.trans h
  | unknown h hget =>
    cases hentry.symm.trans h
    cases hv.symm.trans hget
  | ignored h hget hset =>
    cases hentry.symm.trans h
    cases hv.symm.trans hget
    cases he.symm.trans hset
    rfl

theorem Handled.ignored_iff {sets : Fragment} {entry : Value} {value : Option Value}
    {log : List Event} (h : Handled sets entry value log) :
    (∃ event ∈ log, event.message = "Ignoring malformed instruction set") ↔
      ∃ path set e, RefersToMalformed sets entry path set e := by
  constructor
  · rintro ⟨event, hevent, hmessage⟩
    cases h with
    | appended h =>
      rw [message_of_mem_nestedBlock hevent] at hmessage
      exact absurd hmessage (by decide)
    | malformed h =>
      obtain rfl := List.mem_singleton.mp hevent
      simp [Event.message] at hmessage
    | unknown hentry h =>
      obtain rfl := List.mem_singleton.mp hevent
      simp [Event.message] at hmessage
    | @ignored path r v e hentry hv h => exact ⟨path, r.set, e, r.parameters, v, hentry, hv, h⟩
  · rintro ⟨path, set, e, hrefers⟩
    rw [h.log_ignored hrefers]
    exact ⟨_, List.mem_cons_self, rfl⟩

theorem Handled.accounted {sets : Fragment} {entry : Value} {step : Logged (Option Value)}
    (h : Handled sets entry step.value step.log) : Accounted sets entry step :=
  ⟨h, h.once, fun _ => h.fields, h.ignored_iff, h.log_ignored⟩

theorem exists_forall₂_accounted (sets : Fragment) (entries : List Value) :
    ∃ steps : List (Logged (Option Value)), List.Forall₂ (Accounted sets) entries steps ∧
      (lowerEntries sets entries).value = steps.filterMap Logged.value ∧
      (lowerEntries sets entries).log = steps.flatMap Logged.log := by
  induction entries with
  | nil => exact ⟨[], .nil, rfl, rfl⟩
  | cons entry rest ih =>
    obtain ⟨steps, hsteps, hvalue, hlog⟩ := ih
    refine ⟨lowerEntry sets entry :: steps, .cons (handled_lowerEntry sets entry).accounted hsteps,
      ?_, ?_⟩
    · rw [lowerEntries, Logged.value_bind, Logged.value_bind, hvalue]
      cases h : (lowerEntry sets entry).value <;> simp [h]
    · rw [lowerEntries, Logged.log_bind, Logged.log_bind, hlog]
      simp

/-- Every entry is counted once, as what is appended or as what is skipped. -/
theorem length_of_accounted {sets : Fragment} {entries : List Value}
    {steps : List (Logged (Option Value))} (h : List.Forall₂ (Accounted sets) entries steps) :
    entries.length = (steps.filterMap Logged.value).length +
      countMessage "Skipping malformed path instruction" (steps.flatMap Logged.log) +
      countMessage "Skipping path instruction with unknown instruction set"
        (steps.flatMap Logged.log) := by
  induction h with
  | nil => rfl
  | @cons entry step entries steps hstep _ ih =>
    have hvalue : ((step :: steps).filterMap Logged.value).length =
        step.value.toList.length + (steps.filterMap Logged.value).length := by
      cases h : step.value <;> simp [h, Nat.add_comm]
    have honce := hstep.once
    simp only [List.length_cons, List.flatMap_cons, countMessage_append, hvalue]
    omega

end Expand

namespace Fragment

open Expand

theorem succeeds_lowerPaths {fragment : Fragment}
    (h : ∀ check ∈ fragment.pathChecks, ∀ e, ¬ check e) :
    (fragment.lowerPaths fragment.withoutExtensions).Succeeds := by
  have hdecide := decide_lowerPaths (shows_withoutExtensions fragment)
  cases hvalue : (fragment.lowerPaths fragment.withoutExtensions).value with
  | ok config => exact ⟨config, hvalue⟩
  | error e =>
    obtain ⟨_, hmem, e, he⟩ := Check.exists_first_iff.mp ⟨e, (hdecide e).mp hvalue⟩
    obtain ⟨check, hcheck, rfl⟩ := List.mem_map.mp hmem
    exact absurd he.2 (h check hcheck e)

theorem log_run_pathPlan {fragment config result named : Fragment} {entries : List Value}
    (hsets : fragment.extension? .instructionSets = some (.mapping named))
    (hentries : fragment.extension? .pathInstructions = some (.list entries))
    (h : (fragment.pathPlan.run config).value = .ok result) :
    (fragment.pathPlan.run config).log = (lowerEntries named entries).log := by
  have hplan : fragment.pathPlan = some (.ok (appendPathInstructions named entries)) := by
    rw [pathPlan, hsets, hentries]
    rfl
  rw [hplan, Plan.run_ok] at h ⊢
  obtain ⟨reviews, after, hreviews, hafter, rfl⟩ := Container.within_eq_ok h
  rw [Container.log_within hreviews]
  rw [appendPathInstructions, Attempt.value_bind] at hafter
  obtain ⟨existing, hexisting, -⟩ := bind_eq_ok.mp hafter
  rw [appendPathInstructions, Attempt.log_bind_ok hexisting, Attempt.log_ofExcept,
    List.nil_append, Attempt.log_bind_ok rfl, Attempt.log_lift, Attempt.log_pure, List.append_nil]

theorem reports_lowerCollections (fragment config : Fragment) :
    Attempt.Reports (fun event => ∃ name rules, event = .ruleCollection name rules)
      (fragment.lowerCollections config) := by
  unfold lowerCollections
  split
  · exact .bind (.of_log_eq_nil rfl) fun collections =>
      reports_lowerRuleCollections collections config
  · exact .of_log_eq_nil rfl

theorem message_of_mem_lowerCollections {fragment config : Fragment} {event : Event}
    (h : event ∈ (fragment.lowerCollections config).log) :
    event.message = "Processing rules from collection" := by
  obtain ⟨name, rules, rfl⟩ := reports_lowerCollections fragment config event h
  rfl

theorem countMessage_lowerCollections {message : String}
    (h : message ≠ "Processing rules from collection") (fragment config : Fragment) :
    countMessage message (fragment.lowerCollections config).log = 0 :=
  countMessage_eq_zero fun _ hevent =>
    (message_of_mem_lowerCollections hevent).trans_ne (Ne.symm h)

theorem log_expand {fragment config named : Fragment} {entries : List Value}
    (hsets : fragment.extension? .instructionSets = some (.mapping named))
    (hentries : fragment.extension? .pathInstructions = some (.list entries))
    (h : (fragment.lowerPaths fragment.withoutExtensions).value = .ok config) :
    fragment.expand.log =
      (lowerEntries named entries).log ++ (fragment.lowerCollections config).log := by
  rw [expand_eq, Attempt.log_bind_ok h]
  rw [lowerPaths_eq_run] at h ⊢
  rw [log_run_pathPlan hsets hentries h]

theorem at?_pathInstructions {config reviews : Fragment} {items : List Value}
    (hreviews : config.get? "reviews" = some (.mapping reviews))
    (hitems : reviews.get? "path_instructions" = some (.list items)) :
    (Value.mapping config).at? ["reviews", "path_instructions"] = some (.list items) := by
  simp [Value.at?, Value.get?, hreviews, hitems]

/-- Once the containers are in shape, every entry of the path instructions is appended or reported
as skipped, in order. The rule collections come later and take none of this back. -/
theorem expand_accounts {fragment : Fragment} (hlowers : fragment.LowersPaths)
    (hchecks : ∀ check ∈ fragment.pathChecks, ∀ e, ¬ check e) :
    ∃ (named config : Fragment) (entries existing : List Value)
      (steps : List (Logged (Option Value))) (later : List Event),
      fragment.extension? .instructionSets = some (.mapping named) ∧
      fragment.extension? .pathInstructions = some (.list entries) ∧
      fragment.HasPathInstructions existing ∧
      List.Forall₂ (Accounted named) entries steps ∧
      (fragment.lowerPaths fragment.withoutExtensions).value = .ok config ∧
      (Value.mapping config).at? ["reviews", "path_instructions"] =
        some (.list (existing ++ steps.filterMap Logged.value)) ∧
      (∀ result, fragment.expand.value = .ok result →
        (Value.mapping result).at? ["reviews", "path_instructions"] =
          some (.list (existing ++ steps.filterMap Logged.value))) ∧
      fragment.expand.log = steps.flatMap Logged.log ++ later ∧
      (∀ event ∈ later, event.message = "Processing rules from collection") ∧
      entries.length = (steps.filterMap Logged.value).length +
        countMessage "Skipping malformed path instruction" fragment.expand.log +
        countMessage "Skipping path instruction with unknown instruction set"
          fragment.expand.log := by
  obtain ⟨config, hconfig⟩ := succeeds_lowerPaths hchecks
  obtain ⟨sets, hsets⟩ := Option.isSome_iff_exists.mp hlowers.1
  obtain ⟨items, hitems⟩ := Option.isSome_iff_exists.mp hlowers.2
  have hrun := hconfig
  rw [lowerPaths_eq_run] at hrun
  obtain ⟨named, entries, existing, reviews, rfl, rfl, hexisting, hreviews, hlist⟩ :=
    run_pathPlan_eq_ok hsets hitems hrun
  obtain ⟨steps, hsteps, hvalue, hlog⟩ := exists_forall₂_accounted named entries
  rw [hvalue] at hlist
  have hlogs := log_expand hsets hitems hconfig
  rw [hlog] at hlogs
  have hget : fragment.withoutExtensions.get? "reviews" = fragment.get? "reviews" :=
    get?_withoutExtensions Extension.key_ne_reviews fragment
  refine ⟨named, config, entries, existing, steps, _, hsets, hitems, hexisting.congr hget, hsteps,
    hconfig, at?_pathInstructions hreviews hlist, fun result hresult => ?_, hlogs,
    fun _ => message_of_mem_lowerCollections, ?_⟩
  · rw [expand_eq_plans, Attempt.value_bind, hrun, ok_bind] at hresult
    obtain ⟨after, hafter, hkept⟩ := get?_reviews_of_run_collectionPlan hreviews hresult
    exact at?_pathInstructions hafter ((hkept _ (by decide)).trans hlist)
  · rw [hlogs, countMessage_append, countMessage_append,
      countMessage_lowerCollections (by decide), countMessage_lowerCollections (by decide)]
    exact length_of_accounted hsteps

def mixedSets : Fragment := [("old", .null)]

def mixedEntries : List Value :=
  [.mapping [("path", .string "a"), ("instructions", .string "Be brief")], .bool true,
    .mapping [("path", .string "b"), ("instructions", .mapping [("use", .string "new")])],
    .mapping [("path", .string "c"), ("instructions", .mapping [("use", .string "old")])]]

/-- The rule collections are refused, after the path instructions have been lowered. -/
def mixed : Fragment :=
  [("instruction_sets", .mapping mixedSets), ("enhanced_path_instructions", .list mixedEntries),
    ("rule_collections", .bool true)]

theorem expand_mixed :
    mixed.LowersPaths ∧ (∀ check ∈ mixed.pathChecks, ∀ e, ¬ check e) ∧
      ¬ mixed.expand.Succeeds ∧
      ∃ steps : List (Logged (Option Value)),
        List.Forall₂ (Accounted mixedSets) mixedEntries steps ∧
        steps.filterMap Logged.value = [lowered "a" "Be brief"] ∧
        (∃ later, mixed.expand.log = steps.flatMap Logged.log ++ later) ∧
        countMessage "Skipping malformed path instruction" mixed.expand.log +
          countMessage "Skipping path instruction with unknown instruction set" mixed.expand.log =
            3 := by
  have hlowers : mixed.LowersPaths := ⟨rfl, rfl⟩
  have hchecks : ∀ check ∈ mixed.pathChecks, ∀ e, ¬ check e := by
    intro check hcheck e h
    simp only [pathChecks, List.mem_cons, List.not_mem_nil, or_false] at hcheck
    rcases hcheck with rfl | rfl | rfl | rfl <;> obtain ⟨v, hv, hkind, -⟩ := h <;> cases hv <;>
      exact hkind rfl
  have hfails : ¬ mixed.expand.Succeeds := by
    rintro ⟨result, h⟩
    cases h
  obtain ⟨named, config, entries, existing, steps, later, hnamed, hentries, hexisting, hsteps,
    hconfig, hlist, -, hlog, -, hlength⟩ := expand_accounts hlowers hchecks
  obtain rfl : mixedSets = named := Value.mapping.inj (Option.some.inj hnamed)
  obtain rfl : mixedEntries = entries := Value.list.inj (Option.some.inj hentries)
  have hlowered : existing ++ steps.filterMap Logged.value = [lowered "a" "Be brief"] := by
    obtain rfl := Except.ok.inj hconfig
    exact (Value.list.inj (Option.some.inj hlist)).symm
  have hexisting : existing = [] := by
    cases hexisting with
    | noReviews _ => rfl
    | noList _ _ => rfl
    | list hreviews _ => cases hreviews
  rw [hexisting, List.nil_append] at hlowered
  rw [hlowered] at hlength
  have hfour : mixedEntries.length = 4 := rfl
  have hone : [lowered "a" "Be brief"].length = 1 := rfl
  exact ⟨hlowers, hchecks, hfails, steps, hsteps, hlowered, ⟨later, hlog⟩, by omega⟩

end Fragment
end FlatConfig
