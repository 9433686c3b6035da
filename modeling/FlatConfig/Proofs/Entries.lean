import FlatConfig.Proofs.FirstOccurrence
import FlatConfig.Value

set_option autoImplicit false

namespace FlatConfig

namespace Fragment

@[simp] theorem keys_nil : keys [] = [] := rfl

@[simp] theorem keys_cons (k : String) (v : Value) (rest : Fragment) :
    keys ((k, v) :: rest) = k :: keys rest := rfl

@[simp] theorem get?_nil (key : String) : get? [] key = none := rfl

theorem get?_cons (k : String) (v : Value) (rest : Fragment) (key : String) :
    get? ((k, v) :: rest) key = if k = key then some v else get? rest key := by
  rw [get?, lookup_cons_eq]
  simp only [eq_comm, get?]

@[simp] theorem get?_cons_self (k : String) (v : Value) (rest : Fragment) :
    get? ((k, v) :: rest) k = some v := by simp [get?_cons]

theorem get?_eq_none_iff {fragment : Fragment} {key : String} :
    get? fragment key = none ↔ key ∉ keys fragment := by
  induction fragment with
  | nil => simp
  | cons e rest ih =>
    obtain ⟨k, v⟩ := e
    by_cases h : k = key
    · simp [h]
    · simp [get?_cons, h, ih, Ne.symm h]

theorem get?_isSome_iff {fragment : Fragment} {key : String} :
    (get? fragment key).isSome ↔ key ∈ keys fragment := by
  rw [← not_iff_not, ← get?_eq_none_iff]
  simp

theorem mem_of_get? {fragment : Fragment} {key : String} {v : Value}
    (h : get? fragment key = some v) : (key, v) ∈ fragment := by
  induction fragment with
  | nil => simp at h
  | cons e rest ih =>
    obtain ⟨k, w⟩ := e
    rw [get?_cons] at h
    by_cases hk : k = key
    · simp_all
    · exact List.mem_cons_of_mem _ (ih (by simpa [hk] using h))

theorem ext_keys {a b : Fragment} (hk : keys a = keys b) (hd : (keys a).Nodup)
    (hv : ∀ key, get? a key = get? b key) : a = b := by
  induction a generalizing b with
  | nil => simpa [keys] using hk.symm
  | cons e rest ih =>
    obtain ⟨k, v⟩ := e
    cases b with
    | nil => simp at hk
    | cons f more =>
      obtain ⟨l, w⟩ := f
      simp only [keys_cons, List.cons.injEq] at hk
      obtain ⟨rfl, hrest⟩ := hk
      have hvw : v = w := by simpa using hv k
      obtain ⟨hk, hd⟩ := List.nodup_cons.mp hd
      have hmore : rest = more := by
        apply ih hrest hd
        intro key
        by_cases h : k = key
        · subst key
          rw [get?_eq_none_iff.mpr hk, get?_eq_none_iff.mpr (hrest ▸ hk)]
        · simpa [get?_cons, h] using hv key
      rw [hvw, hmore]

theorem get?_update (fragment : Fragment) (key : String) (f : Option Value → Value)
    (other : String) :
    get? (fragment.update key f) other =
      if key = other then some (f (get? fragment key)) else get? fragment other := by
  induction fragment with
  | nil => simp [update, get?_cons]
  | cons e rest ih =>
    obtain ⟨k, v⟩ := e
    by_cases hk : k = key
    · subst k
      by_cases ho : key = other <;> simp [update, get?_cons, ho]
    · by_cases ho : key = other
      · subst other
        simp [update, get?_cons, hk, ih]
      · simp [update, get?_cons, hk, ho, ih]

theorem keys_update (fragment : Fragment) (key : String) (f : Option Value → Value) :
    keys (fragment.update key f) =
      if key ∈ keys fragment then keys fragment else keys fragment ++ [key] := by
  induction fragment with
  | nil => simp [update]
  | cons e rest ih =>
    obtain ⟨k, v⟩ := e
    by_cases hk : k = key
    · simp [update, hk]
    · by_cases hm : key ∈ keys rest <;> simp [update, hk, Ne.symm hk, ih, hm]

theorem nodup_keys_update {fragment : Fragment} (h : (keys fragment).Nodup) (key : String)
    (f : Option Value → Value) : (keys (fragment.update key f)).Nodup := by
  rw [keys_update]
  by_cases hm : key ∈ keys fragment
  · simpa [hm] using h
  · simp only [hm, if_false]
    refine List.nodup_append.mpr ⟨h, by simp, ?_⟩
    intro k hk l hl he
    exact hm (by simp_all)

theorem get?_insert (fragment : Fragment) (key : String) (v : Value) (other : String) :
    get? (fragment.insert key v) other = if key = other then some v else get? fragment other :=
  get?_update fragment key _ other

theorem get?_insert_self (fragment : Fragment) (key : String) (v : Value) :
    get? (fragment.insert key v) key = some v := by
  rw [get?_insert, if_pos rfl]

theorem nodup_keys_insert {fragment : Fragment} (h : (keys fragment).Nodup) (key : String)
    (v : Value) : (keys (fragment.insert key v)).Nodup :=
  nodup_keys_update h key _

theorem insert_cons (k : String) (w : Value) (rest : Fragment) (key : String) (v : Value) :
    insert ((k, w) :: rest) key v =
      if k = key then (k, v) :: rest else (k, w) :: rest.insert key v := rfl

theorem erase_cons (k : String) (w : Value) (rest : Fragment) (key : String) :
    erase ((k, w) :: rest) key = if k = key then rest.erase key else (k, w) :: rest.erase key := by
  by_cases h : k = key <;> simp [erase, h]

theorem insert_insert (fragment : Fragment) (key : String) (v w : Value) :
    (fragment.insert key v).insert key w = fragment.insert key w := by
  induction fragment with
  | nil => simp [insert, update]
  | cons e rest ih =>
    obtain ⟨k, u⟩ := e
    by_cases h : k = key <;> simp [insert_cons, h, ih]

theorem insert_of_get? {fragment : Fragment} {key : String} {v : Value}
    (h : fragment.get? key = some v) : fragment.insert key v = fragment := by
  induction fragment with
  | nil => cases h
  | cons e rest ih =>
    obtain ⟨k, w⟩ := e
    rw [get?_cons] at h
    rw [insert_cons]
    by_cases hk : k = key
    · rw [if_pos hk] at h ⊢
      rw [hk, Option.some.inj h]
    · rw [if_neg hk] at h ⊢
      rw [ih h]

theorem keys_insert (fragment : Fragment) (key : String) (v : Value) :
    keys (fragment.insert key v) =
      if key ∈ keys fragment then keys fragment else keys fragment ++ [key] :=
  keys_update fragment key _

theorem keys_erase (fragment : Fragment) (key : String) :
    keys (fragment.erase key) = (keys fragment).filter (· != key) := by
  simp only [keys, erase, List.filter_map]
  rfl

theorem nodup_keys_erase {fragment : Fragment} (h : (keys fragment).Nodup) (key : String) :
    (keys (fragment.erase key)).Nodup := by
  rw [keys_erase]
  exact h.filter _

theorem erase_of_not_mem {fragment : Fragment} {key : String} (h : key ∉ keys fragment) :
    fragment.erase key = fragment := by
  apply List.filter_eq_self.mpr
  intro e he
  have hne : e.1 ≠ key := fun hk => h (hk ▸ List.mem_map_of_mem he)
  simpa using hne

theorem get?_erase (fragment : Fragment) (key other : String) :
    get? (fragment.erase key) other = if key = other then none else get? fragment other := by
  induction fragment with
  | nil => simp [erase]
  | cons e rest ih =>
    obtain ⟨k, v⟩ := e
    rw [erase_cons, get?_cons]
    by_cases hk : k = key
    · rw [if_pos hk, ih, hk]
      by_cases ho : key = other <;> simp [ho]
    · rw [if_neg hk, get?_cons, ih]
      by_cases ho : k = other
      · subst other
        simp [Ne.symm hk]
      · simp [ho]

end Fragment
end FlatConfig
