import FlatConfig.Error
import Mathlib.Control.Basic

/-!
The laws of computations that report events and may fail.

What an attempt comes to is computed without its events: `Attempt.value` turns every operation on
attempts into the same operation on results. What it reports, `Attempt.log`, ends where it fails.
-/

set_option autoImplicit false

namespace FlatConfig

section

variable {ε α β : Type}

@[simp] theorem ok_bind (a : α) (f : α → Except ε β) : (Except.ok a >>= f) = f a := rfl

@[simp] theorem error_bind (e : ε) (f : α → Except ε β) :
    (Except.error e >>= f) = .error e := rfl

@[simp] theorem map_ok (f : α → β) (a : α) : f <$> (.ok a : Except ε α) = .ok (f a) := rfl

@[simp] theorem map_error (f : α → β) (e : ε) : f <$> (.error e : Except ε α) = .error e := rfl

@[simp] theorem discard_ok (a : α) : discard (.ok a : Except ε α) = .ok () := rfl

theorem bind_eq_ok {x : Except ε α} {f : α → Except ε β} {b : β} :
    x >>= f = .ok b ↔ ∃ a, x = .ok a ∧ f a = .ok b := by
  cases x <;> simp

theorem map_eq_ok {f : α → β} {x : Except ε α} {b : β} :
    f <$> x = .ok b ↔ ∃ a, x = .ok a ∧ f a = b := by
  cases x <;> simp

theorem mapError_eq_ok {ε' : Type} {f : ε → ε'} {x : Except ε α} {a : α} :
    x.mapError f = .ok a ↔ x = .ok a := by
  cases x <;> simp [Except.mapError]

theorem bind_eq_error {x : Except ε α} {f : α → Except ε β} {e : ε} :
    x >>= f = .error e ↔ x = .error e ∨ ∃ a, x = .ok a ∧ f a = .error e := by
  cases x <;> simp

theorem forM_eq_ok {check : α → Except ε Unit} {items : List α} :
    forM items check = .ok () ↔ ∀ a ∈ items, check a = .ok () := by
  induction items with
  | nil => simp [pure, Except.pure]
  | cons a rest ih =>
    rw [List.forM_cons, bind_eq_ok, List.forall_mem_cons, ← ih]
    exact ⟨fun ⟨_, h⟩ => h, fun h => ⟨(), h⟩⟩

theorem forM_eq_error {check : α → Except ε Unit} {items : List α} {e : ε} :
    forM items check = .error e ↔ ∃ before a after, items = before ++ a :: after ∧
      (∀ b ∈ before, check b = .ok ()) ∧ check a = .error e := by
  induction items with
  | nil => simp [pure, Except.pure]
  | cons a rest ih =>
    rw [List.forM_cons, bind_eq_error, ih]
    constructor
    · rintro (ha | ⟨_, ha, before, b, after, rfl, hbefore, hb⟩)
      · exact ⟨[], a, rest, rfl, by simp, ha⟩
      · exact ⟨a :: before, b, after, rfl, List.forall_mem_cons.mpr ⟨ha, hbefore⟩, hb⟩
    · rintro ⟨before, b, after, hitems, hbefore, hb⟩
      cases before with
      | nil =>
        obtain ⟨rfl, rfl⟩ := List.cons.inj hitems
        exact .inl hb
      | cons c before =>
        obtain ⟨rfl, rfl⟩ := List.cons.inj hitems
        obtain ⟨hc, hbefore⟩ := List.forall_mem_cons.mp hbefore
        exact .inr ⟨(), hc, before, b, after, rfl, hbefore, hb⟩

end

/-- Both fail with the same error, or both come to results that are related. -/
inductive Alike {ε α : Type} (R : α → α → Prop) : Except ε α → Except ε α → Prop where
  | error (e : ε) : Alike R (.error e) (.error e)
  | ok {a b : α} (h : R a b) : Alike R (.ok a) (.ok b)

namespace Alike

variable {ε α β : Type} {R : α → α → Prop} {S : β → β → Prop}

theorem of_eq (hrefl : ∀ a, R a a) {x y : Except ε α} (h : x = y) : Alike R x y := by
  subst h
  cases x with
  | error e => exact .error e
  | ok a => exact .ok (hrefl a)

theorem bind {x y : Except ε α} {f g : α → Except ε β} (h : Alike R x y)
    (hf : ∀ a b, R a b → Alike S (f a) (g b)) : Alike S (x >>= f) (y >>= g) := by
  cases h with
  | error e => exact .error e
  | ok h => exact hf _ _ h

theorem bind_same (x : Except ε α) {f g : α → Except ε β} (h : ∀ a, Alike S (f a) (g a)) :
    Alike S (x >>= f) (x >>= g) :=
  bind (of_eq Eq.refl rfl) fun a _ hab => hab ▸ h a

end Alike

namespace Logged

theorem ext_log_value {α : Type} {x y : Logged α} (hl : x.log = y.log) (hv : x.value = y.value) :
    x = y := by
  cases x
  cases y
  simp_all

instance : LawfulMonad Logged := by
  refine LawfulMonad.mk' _ ?_ ?_ ?_
  · intro α x
    exact ext_log_value (List.append_nil x.log) rfl
  · intro α β a f
    exact ext_log_value (List.nil_append _) rfl
  · intro α β γ x f g
    exact ext_log_value (List.append_assoc _ _ _) rfl

end Logged

namespace Attempt

variable {α β : Type}

def value (x : Attempt α) : Except Error α := x.run.value

@[simp] theorem value_pure (a : α) : value (pure a) = .ok a := rfl

@[simp] theorem value_ofExcept (result : Except Error α) : value (ofExcept result) = result := rfl

@[simp] theorem value_fail (e : Error) : value (fail e : Attempt α) = .error e := rfl

@[simp] theorem value_tell (event : Event) : value (tell event) = .ok () := rfl

@[simp] theorem value_bind (x : Attempt α) (f : α → Attempt β) :
    value (x >>= f) = value x >>= fun a => value (f a) := by
  simp only [value, ExceptT.run_bind, Logged.value_bind]
  cases x.run.value <;> rfl

@[simp] theorem value_map (f : α → β) (x : Attempt α) : value (f <$> x) = f <$> value x := by
  rw [map_eq_pure_bind, value_bind]
  cases value x <;> rfl

@[simp] theorem value_forM_tell (events : List Event) : value (forM events tell) = .ok () := by
  induction events with
  | nil => rfl
  | cons event rest ih => rw [List.forM_cons, value_bind, value_tell, ok_bind, ih]

def log (x : Attempt α) : List Event := x.run.log

@[simp] theorem log_pure (a : α) : log (pure a) = [] := rfl

@[simp] theorem log_fail (e : Error) : log (fail e : Attempt α) = [] := rfl

@[simp] theorem log_tell (event : Event) : log (tell event) = [event] := rfl

theorem log_bind_ok {x : Attempt α} {a : α} (h : value x = .ok a) (f : α → Attempt β) :
    log (x >>= f) = log x ++ log (f a) := by
  rw [value] at h
  simp only [log, ExceptT.run_bind, Logged.log_bind, h]

theorem log_bind_error {x : Attempt α} {e : Error} (h : value x = .error e) (f : α → Attempt β) :
    log (x >>= f) = log x := by
  rw [value] at h
  simp only [log, ExceptT.run_bind, Logged.log_bind, h, Logged.log_pure, List.append_nil]

@[simp] theorem log_map (f : α → β) (x : Attempt α) : log (f <$> x) = log x := by
  rw [map_eq_pure_bind]
  cases h : value x with
  | ok a => rw [log_bind_ok h, log_pure, List.append_nil]
  | error e => rw [log_bind_error h]

@[simp] theorem log_forM_tell (events : List Event) : log (forM events tell) = events := by
  induction events with
  | nil => rfl
  | cons event rest ih =>
    rw [List.forM_cons, log_bind_ok (value_tell event), log_tell, ih, List.singleton_append]

def FailsWith (p : Error → Prop) (x : Attempt α) : Prop := ∀ e, value x = .error e → p e

namespace FailsWith

variable {p : Error → Prop}

theorem ofExcept {result : Except Error α} (h : ∀ e, result = .error e → p e) :
    FailsWith p (Attempt.ofExcept result) := h

theorem lift (x : Logged α) : FailsWith p (ExceptT.lift x) := by
  intro e h
  cases h

theorem bind {x : Attempt α} {f : α → Attempt β} (hx : FailsWith p x)
    (hf : ∀ a, FailsWith p (f a)) : FailsWith p (x >>= f) := by
  intro e h
  rw [value_bind, bind_eq_error] at h
  rcases h with h | ⟨a, _, h⟩
  · exact hx e h
  · exact hf a e h

theorem pure (a : α) : FailsWith p (Pure.pure a) := lift (Pure.pure a)

end FailsWith

end Attempt
end FlatConfig
