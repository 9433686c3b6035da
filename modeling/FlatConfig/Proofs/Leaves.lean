import FlatConfig.Proofs.Attempt
import FlatConfig.Resolve

set_option autoImplicit false

namespace FlatConfig.Item

mutual
def leaves : Item → List Item
  | .fragment f => [.fragment f]
  | .list items => leavesOf items
  | .function name body => [.function name body]
termination_by structural item => item

def leavesOf : List Item → List Item
  | [] => []
  | item :: rest => item.leaves ++ leavesOf rest
termination_by structural items => items
end

theorem gatherItems_cons (env : Environment) (position : Nat) (item : Item) (rest : List Item) :
    gatherItems env position (item :: rest) = do
      let first ← item.gather env position
      let more ← gatherItems env (position + first.length) rest
      return first ++ more := by
  rw [gatherItems]

theorem gatherItems_singleton (env : Environment) (position : Nat) (item : Item) :
    gatherItems env position [item] = item.gather env position := by
  simp [gatherItems]

theorem gatherItems_append (env : Environment) (position : Nat) (before after : List Item) :
    gatherItems env position (before ++ after) = do
      let first ← gatherItems env position before
      let more ← gatherItems env (position + first.length) after
      return first ++ more := by
  induction before generalizing position with
  | nil => simp [gatherItems]
  | cons item rest ih =>
    simp only [List.cons_append, gatherItems_cons, ih, bind_assoc, pure_bind, List.length_append,
      List.append_assoc, Nat.add_assoc]

mutual
theorem gather_eq_leaves (env : Environment) (position : Nat) (item : Item) :
    item.gather env position = gatherItems env position item.leaves := by
  cases item with
  | fragment f => rw [leaves, gatherItems_singleton]
  | list items => rw [leaves, gather, gatherItems_eq_leavesOf]
  | function name body => rw [leaves, gatherItems_singleton]

theorem gatherItems_eq_leavesOf (env : Environment) (position : Nat) (items : List Item) :
    gatherItems env position items = gatherItems env position (leavesOf items) := by
  cases items with
  | nil => rfl
  | cons item rest =>
    rw [leavesOf, gatherItems_append, gatherItems_cons, ← gather_eq_leaves env position item]
    congr 1
    funext first
    rw [gatherItems_eq_leavesOf env _ rest]
end

/-- One function of the first tree, at any depth, is replaced by the item that it returns. -/
inductive Inlines (env : Environment) : Item → Item → Prop where
  | here {name : String} {body : Environment → Logged (Except Failure Item)} {item : Item}
      (h : (body env).value = .ok item) : Inlines env (.function name body) item
  | within (before after : List Item) {a b : Item} (h : Inlines env a b) :
      Inlines env (.list (before ++ a :: after)) (.list (before ++ b :: after))

theorem value_gather_function {env : Environment} {name : String}
    {body : Environment → Logged (Except Failure Item)} {item : Item}
    (h : (body env).value = .ok item) (position : Nat) :
    (gather env position (.function name body)).value = (item.gather env position).value := by
  cases hb : body env with
  | mk log result =>
    have hr : result = .ok item := by simpa [hb] using h
    subst hr
    rw [gather, hb]
    simp [gatherOutcome, gatherResult]

theorem value_gather_of_inlines {env : Environment} {a b : Item} (h : Inlines env a b)
    (position : Nat) : (a.gather env position).value = (b.gather env position).value := by
  induction h generalizing position with
  | here h => exact value_gather_function h position
  | within before after h ih =>
    simp only [gather, gatherItems_append, gatherItems_cons, Attempt.value_bind, ih]

theorem value_flatten (item : Item) (env : Environment) :
    (item.flatten env).value = (item.gather env 0).value := by
  cases h : (item.gather env 0).value <;> simp [flatten, h]

theorem value_resolve (item : Item) (env : Environment) :
    (item.resolve env).value =
      (item.flatten env).value >>= fun fragments =>
        forM fragments Fragment.validate >>= fun _ =>
          (Fragment.mergeAll fragments).expand.value := by
  simp [resolve]

/-- The leaves decide the result or the error, and what is invoked on the way to it. -/
theorem resolve_leaves (env : Environment) :
    (∀ a b : Item, a.leaves = b.leaves → a.resolve env = b.resolve env) ∧
      ∀ a b : Item, Inlines env a b → (a.resolve env).value = (b.resolve env).value := by
  constructor
  · intro a b h
    have hg : a.gather env 0 = b.gather env 0 := by
      rw [gather_eq_leaves, gather_eq_leaves, h]
    rw [resolve, resolve, flatten, flatten, hg]
  · intro a b h
    rw [value_resolve, value_resolve, value_flatten, value_flatten, value_gather_of_inlines h]

def tone : Item := .fragment [("tone", .string "kind")]

def author : Item := .fragment [("user", .string "me")]

def addAuthor : Item := .function "author" fun _ => pure (.ok (.list [.list [], author]))

def flat : Item := .list [tone, addAuthor, tone]

def grouped : Item := .list [.list [], .list [.list [tone]], .list [.list [addAuthor], tone]]

theorem resolve_grouped :
    grouped.leaves = flat.leaves ∧ grouped.resolve [] = flat.resolve [] ∧
      (grouped.resolve []).value =
        ((Item.list [.list [], .list [.list [tone]],
          .list [.list [.list [.list [], author]], tone]]).resolve []).value ∧
      (flat.resolve []).value = .ok [("tone", .string "kind"), ("user", .string "me")] := by
  have hleaves : grouped.leaves = flat.leaves := rfl
  have hinlines : Inlines [] addAuthor (.list [.list [], author]) := .here rfl
  exact ⟨hleaves, (resolve_leaves []).1 _ _ hleaves,
    (resolve_leaves []).2 _ _
      (.within [.list [], .list [.list [tone]]] [] (.within [] [tone] (.within [] [] hinlines))),
    rfl⟩

end FlatConfig.Item
