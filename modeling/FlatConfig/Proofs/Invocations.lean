import FlatConfig.Proofs.Leaves

/-!
What flattening invokes, in which order, and where it stops.

The visits of an item are its fragments and functions from left to right, with what a function
returns right after it. Flattening reports the visits up to the first function that fails, and comes
to the failure of that function or to the fragments of all visits (`flatten_visits`).
-/

set_option autoImplicit false

namespace FlatConfig.Item

/-- What holds of an item when it holds of all that the item lists or, in an environment, returns
holds of every item. -/
@[elab_as_elim]
theorem induction_in (env : Environment) {motive : Item → Prop}
    (fragment : ∀ f, motive (.fragment f))
    (list : ∀ items, (∀ item ∈ items, motive item) → motive (.list items))
    (function : ∀ name body, (∀ item, (body env).value = .ok item → motive item) →
      motive (.function name body))
    (item : Item) : motive item := by
  refine @Item.rec motive (fun items => ∀ item ∈ items, motive item)
    (fun outcome => ∀ item, outcome.value = .ok item → motive item)
    (fun result => ∀ item, result = .ok item → motive item)
    fragment list (fun name body ih => function name body (ih env))
    ?nil ?cons ?outcome ?error ?ok item
  case nil => simp
  case cons =>
    intro first rest hfirst hrest
    exact List.forall_mem_cons.mpr ⟨hfirst, hrest⟩
  case outcome =>
    intro log result h
    exact h
  case error => simp
  case ok =>
    intro returned h item he
    exact Except.ok.inj he ▸ h

inductive Visit where
  | fragment (fragment : Fragment)
  | function (name : String) (body : Environment → Logged (Except Failure Item))

mutual
/-- The visits of an item in an environment. A function that fails returns nothing to visit. -/
def visits (env : Environment) : Item → List Visit
  | .fragment f => [.fragment f]
  | .list items => visitsOf env items
  | .function name body => .function name body :: visitsOfOutcome env (body env)
termination_by structural item => item

def visitsOf (env : Environment) : List Item → List Visit
  | [] => []
  | item :: rest => item.visits env ++ visitsOf env rest
termination_by structural items => items

def visitsOfOutcome (env : Environment) : Logged (Except Failure Item) → List Visit
  | ⟨_, result⟩ => visitsOfResult env result
termination_by structural outcome => outcome

def visitsOfResult (env : Environment) : Except Failure Item → List Visit
  | .error _ => []
  | .ok item => item.visits env
termination_by structural result => result
end

namespace Visit

def fragment? : Visit → Option Fragment
  | .fragment f => some f
  | .function _ _ => none

def failure? (env : Environment) : Visit → Option Failure
  | .fragment _ => none
  | .function _ body =>
    match (body env).value with
    | .error failure => some failure
    | .ok _ => none

def report (env : Environment) (position : Nat) : Visit → List Event
  | .fragment _ => []
  | .function name body => .invokingFunction name position :: (body env).log

def calls (env : Environment) : Visit → List String
  | .fragment _ => []
  | .function name body => name :: (body env).calls

def fragments (visits : List Visit) : List Fragment := visits.filterMap fragment?

def firstFailure? (env : Environment) (visits : List Visit) : Option Failure :=
  visits.findSome? (failure? env)

/-- The visits up to the first function that fails, with that function. -/
def reached (env : Environment) : List Visit → List Visit
  | [] => []
  | visit :: rest => visit :: if (visit.failure? env).isSome then [] else reached env rest

def reports (env : Environment) (position : Nat) : List Visit → List Event
  | [] => []
  | visit :: rest =>
    visit.report env position ++ reports env (position + (fragments [visit]).length) rest

def outcome (env : Environment) (visits : List Visit) : Except Error (List Fragment) :=
  match firstFailure? env visits with
  | some failure => .error (.ofFailure failure)
  | none => .ok (fragments visits)

variable {env : Environment} {before after : List Visit}

@[simp] theorem fragments_append (before after : List Visit) :
    fragments (before ++ after) = fragments before ++ fragments after :=
  List.filterMap_append

@[simp] theorem fragments_function (name : String)
    (body : Environment → Logged (Except Failure Item)) (rest : List Visit) :
    fragments (.function name body :: rest) = fragments rest := rfl

theorem reports_function (env : Environment) (position : Nat) (name : String)
    (body : Environment → Logged (Except Failure Item)) (rest : List Visit) :
    reports env position (.function name body :: rest) =
      .invokingFunction name position :: ((body env).log ++ reports env position rest) := rfl

theorem firstFailure?_append (env : Environment) (before after : List Visit) :
    firstFailure? env (before ++ after) =
      (firstFailure? env before).or (firstFailure? env after) :=
  List.findSome?_append

theorem firstFailure?_cons (env : Environment) (visit : Visit) (rest : List Visit) :
    firstFailure? env (visit :: rest) = (visit.failure? env).or (firstFailure? env rest) := by
  cases h : visit.failure? env <;> simp [firstFailure?, h]

theorem reached_append_of_failure {failure : Failure}
    (h : firstFailure? env before = some failure) (after : List Visit) :
    reached env (before ++ after) = reached env before := by
  induction before with
  | nil => simp [firstFailure?] at h
  | cons visit rest ih =>
    rw [firstFailure?_cons] at h
    cases hv : visit.failure? env with
    | some _ => simp [reached, hv]
    | none => simp [reached, hv, ih (by simpa [hv] using h)]

theorem reached_append (h : firstFailure? env before = none) (after : List Visit) :
    reached env (before ++ after) = before ++ reached env after := by
  induction before with
  | nil => rfl
  | cons visit rest ih =>
    rw [firstFailure?_cons, Option.or_eq_none_iff] at h
    simp [reached, h.1, ih h.2]

theorem reached_eq_self (h : firstFailure? env before = none) : reached env before = before := by
  simpa [reached] using reached_append h []

theorem reports_append (env : Environment) (position : Nat) (before after : List Visit) :
    reports env position (before ++ after) =
      reports env position before ++
        reports env (position + (fragments before).length) after := by
  induction before generalizing position with
  | nil => rfl
  | cons visit rest ih =>
    have hcons : fragments (visit :: rest) = fragments [visit] ++ fragments rest :=
      fragments_append [visit] rest
    simp only [List.cons_append, reports, ih, hcons, List.length_append, Nat.add_assoc,
      List.append_assoc]

theorem filterMap_invoked?_reports (env : Environment) (position : Nat) (visits : List Visit) :
    (reports env position visits).filterMap Event.invoked? = visits.flatMap (calls env) := by
  induction visits generalizing position with
  | nil => rfl
  | cons visit rest ih =>
    rw [reports, List.filterMap_append, ih, List.flatMap_cons]
    cases visit <;> rfl

theorem exists_failure_iff (env : Environment) (visits : List Visit) :
    (∃ visit ∈ reached env visits, (visit.failure? env).isSome) ↔
      (firstFailure? env visits).isSome := by
  induction visits with
  | nil => simp [reached, firstFailure?]
  | cons visit rest ih =>
    rw [firstFailure?_cons, reached]
    cases hv : visit.failure? env <;> simp [hv, ih]

end Visit

/-- An attempt with `position` fragments before it reports what visits do and comes to the same. -/
structure Follows (env : Environment) (position : Nat) (visits : List Visit)
    (x : Attempt (List Fragment)) : Prop where
  log : x.log = Visit.reports env position (Visit.reached env visits)
  value : x.value = Visit.outcome env visits

theorem Follows.append {env : Environment} {position : Nat} {before after : List Visit}
    {x : Attempt (List Fragment)} {y : List Fragment → Attempt (List Fragment)}
    (hx : Follows env position before x)
    (hy : ∀ first, Follows env (position + first.length) after (y first)) :
    Follows env position (before ++ after) (do
      let first ← x
      let more ← y first
      return first ++ more) := by
  have hvalue := hx.value
  cases hf : Visit.firstFailure? env before with
  | some failure =>
    simp only [Visit.outcome, hf] at hvalue
    constructor
    · rw [Attempt.log_bind_error hvalue, hx.log, Visit.reached_append_of_failure hf]
    · simp [hvalue, Visit.outcome, Visit.firstFailure?_append, hf]
  | none =>
    simp only [Visit.outcome, hf] at hvalue
    have hrest := hy (Visit.fragments before)
    simp only [bind_pure_comp]
    constructor
    · rw [Attempt.log_bind_ok hvalue, Attempt.log_map, hx.log, hrest.log,
        Visit.reached_append hf, Visit.reports_append, Visit.reached_eq_self hf]
    · rw [Attempt.value_bind, hvalue, ok_bind, Attempt.value_map, hrest.value, Visit.outcome,
        Visit.outcome, Visit.firstFailure?_append, hf, Option.none_or]
      cases Visit.firstFailure? env after <;> simp

theorem visits_function (env : Environment) (name : String)
    (body : Environment → Logged (Except Failure Item)) :
    visits env (Item.function name body) =
      Visit.function name body :: visitsOfResult env (body env).value := by
  rw [visits]
  cases body env
  rfl

theorem gather_function (env : Environment) (position : Nat) (name : String)
    (body : Environment → Logged (Except Failure Item)) :
    gather env position (Item.function name body) = (do
      Attempt.tell (.invokingFunction name position)
      forM (body env).log Attempt.tell
      gatherResult env position (body env).value) := by
  rw [gather]
  cases body env
  rfl

theorem follows_function {env : Environment} {position : Nat} {name : String}
    {body : Environment → Logged (Except Failure Item)}
    (h : ∀ item, (body env).value = .ok item →
      Follows env position (item.visits env) (item.gather env position)) :
    Follows env position (visits env (.function name body))
      (gather env position (.function name body)) := by
  have htell := Attempt.value_tell (.invokingFunction name position)
  have hreports := Attempt.value_forM_tell (body env).log
  rw [visits_function, gather_function]
  cases hb : (body env).value with
  | error failure =>
    have hf : (Visit.function name body).failure? env = some failure := by simp [Visit.failure?, hb]
    rw [visitsOfResult, gatherResult]
    constructor
    · rw [Attempt.log_bind_ok htell, Attempt.log_bind_ok hreports]
      simp [Visit.reached, hf, Visit.reports_function, Visit.reports]
    · simp [Visit.outcome, Visit.firstFailure?_cons, hf]
  | ok item =>
    have hf : (Visit.function name body).failure? env = none := by simp [Visit.failure?, hb]
    have hitem := h item hb
    rw [visitsOfResult, gatherResult]
    constructor
    · rw [Attempt.log_bind_ok htell, Attempt.log_bind_ok hreports, hitem.log]
      simp [Visit.reached, hf, Visit.reports_function]
    · simp [Visit.outcome, Visit.firstFailure?_cons, hf, hitem.value]

theorem follows_gatherItems {env : Environment} {items : List Item}
    (h : ∀ item ∈ items, ∀ position,
      Follows env position (item.visits env) (item.gather env position)) (position : Nat) :
    Follows env position (visitsOf env items) (gatherItems env position items) := by
  induction items generalizing position with
  | nil => exact ⟨rfl, rfl⟩
  | cons item rest ih =>
    rw [visitsOf, gatherItems]
    exact .append (h item (by simp) position) fun first => ih (fun i hi => h i (by simp [hi])) _

theorem follows_gather (env : Environment) (item : Item) (position : Nat) :
    Follows env position (item.visits env) (item.gather env position) := by
  induction item using induction_in env generalizing position with
  | fragment f => exact ⟨rfl, rfl⟩
  | list items ih => exact follows_gatherItems ih position
  | function name body ih => exact follows_function fun item h => ih item h position

theorem value_flatten_eq_outcome (item : Item) (env : Environment) :
    (item.flatten env).value = Visit.outcome env (item.visits env) := by
  rw [value_flatten, (follows_gather env item 0).value]

/-- The number of fragments is reported when there is no failure. -/
theorem log_flatten (item : Item) (env : Environment) :
    (item.flatten env).log =
      Visit.reports env 0 (Visit.reached env (item.visits env)) ++
        match (item.flatten env).value with
        | .ok fragments => [.flattened fragments.length]
        | .error _ => [] := by
  rw [← (follows_gather env item 0).log]
  cases h : (item.gather env 0).value with
  | error e => simp [flatten, Attempt.log_bind_error h, h]
  | ok fragments =>
    have htell := Attempt.value_tell (.flattened fragments.length)
    rw [flatten, Attempt.log_bind_ok h, Attempt.log_bind_ok htell]
    simp [h]

/-- Functions are invoked in the order of the visits, each once, up to the first that fails. -/
theorem flatten_visits (item : Item) (env : Environment) :
    (item.flatten env).log =
        Visit.reports env 0 (Visit.reached env (item.visits env)) ++
          (match (item.flatten env).value with
          | .ok fragments => [.flattened fragments.length]
          | .error _ => []) ∧
      (item.flatten env).run.calls =
        (Visit.reached env (item.visits env)).flatMap (Visit.calls env) ∧
      ((∃ e, (item.flatten env).value = .error e) ↔
        ∃ visit ∈ Visit.reached env (item.visits env), (visit.failure? env).isSome) ∧
      (item.flatten env).value =
        match Visit.firstFailure? env (item.visits env) with
        | some failure => .error (.ofFailure failure)
        | none => .ok (Visit.fragments (item.visits env)) := by
  have hlog := log_flatten item env
  have hvalue := value_flatten_eq_outcome item env
  refine ⟨hlog, ?_, ?_, hvalue⟩
  · have hcalls : (item.flatten env).run.calls =
        (item.flatten env).log.filterMap Event.invoked? := rfl
    rw [hcalls, hlog, List.filterMap_append, Visit.filterMap_invoked?_reports]
    cases (item.flatten env).value <;> simp [Event.invoked?]
  · rw [hvalue, Visit.exists_failure_iff, Visit.outcome]
    cases Visit.firstFailure? env (item.visits env) <;> simp

/-- What the outer function returns comes before the later one, which is not reached. -/
example :
    (flatten (.list
      [.function "outer" fun _ => pure (.ok (.list [.fragment [],
          .function "inner" fun _ => pure (.error (.raised "no network"))])),
        .function "later" fun _ => pure (.ok (.list []))]) []).run.calls =
      ["outer", "inner"] := rfl

end FlatConfig.Item
