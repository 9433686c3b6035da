import FlatConfig.Merge
import FlatConfig.Proofs.Entries

set_option autoImplicit false

namespace FlatConfig

namespace Value

def fill (incoming : Value) : Option Value → Value
  | some value => value.merge incoming
  | none => incoming

/-- Values merged from left to right; none where there is no value. -/
def mergeAll : List Value → Option Value
  | [] => none
  | v :: vs => some (vs.foldl merge v)

@[simp] theorem null_merge (v : Value) : merge .null v = v := by cases v <;> rfl

theorem merge_of_not_mapping {v : Value} (hn : v ≠ .null) (hm : ∀ m, v ≠ .mapping m)
    (w : Value) : merge v w = v := by
  cases v with
  | null => exact absurd rfl hn
  | mapping m => exact absurd rfl (hm m)
  | _ => cases w <;> rfl

theorem foldl_merge_of_not_mapping {v : Value} (hn : v ≠ .null) (hm : ∀ m, v ≠ .mapping m)
    (ws : List Value) : ws.foldl merge v = v := by
  induction ws with
  | nil => rfl
  | cons w ws ih => rw [List.foldl_cons, merge_of_not_mapping hn hm, ih]

theorem fill_eq (incoming : Value) (value : Option Value) :
    some (incoming.fill value) = mergeAll (value.toList ++ [incoming]) := by
  cases value <;> rfl

theorem mergeAll_append (vs ws : List Value) :
    mergeAll ((mergeAll vs).toList ++ ws) = mergeAll (vs ++ ws) := by
  cases vs with
  | nil => rfl
  | cons v vs => simp [mergeAll]

end Value

namespace Fragment

def valuesAt (fragment : Fragment) (key : String) : List Value :=
  fragment.filterMap fun (k, v) => if k = key then some v else none

theorem valuesAt_cons (k : String) (v : Value) (rest : Fragment) (key : String) :
    valuesAt ((k, v) :: rest) key =
      if k = key then v :: valuesAt rest key else valuesAt rest key := by
  by_cases h : k = key <;> simp [valuesAt, h]

theorem valuesAt_eq_nil {fragment : Fragment} {key : String} (h : key ∉ keys fragment) :
    valuesAt fragment key = [] := by
  induction fragment with
  | nil => rfl
  | cons e rest ih =>
    obtain ⟨k, v⟩ := e
    simp only [keys_cons, List.mem_cons, not_or] at h
    rw [valuesAt_cons, if_neg (Ne.symm h.1), ih h.2]

theorem head?_valuesAt (fragment : Fragment) (key : String) :
    (valuesAt fragment key).head? = get? fragment key := by
  induction fragment with
  | nil => rfl
  | cons e rest ih =>
    obtain ⟨k, v⟩ := e
    by_cases h : k = key <;> simp [valuesAt_cons, get?_cons, h, ih]

theorem valuesAt_of_nodup {fragment : Fragment} (hd : (keys fragment).Nodup) (key : String) :
    valuesAt fragment key = (get? fragment key).toList := by
  induction fragment with
  | nil => rfl
  | cons e rest ih =>
    obtain ⟨k, v⟩ := e
    obtain ⟨hk, hrest⟩ := List.nodup_cons.mp hd
    by_cases h : k = key
    · subst key
      simp [valuesAt_cons, valuesAt_eq_nil hk]
    · simp [valuesAt_cons, get?_cons, h, ih hrest]

@[simp] theorem merge_nil_right (kept : Fragment) : merge kept [] = kept := rfl

theorem merge_cons (kept : Fragment) (key : String) (v : Value) (rest : Fragment) :
    merge kept ((key, v) :: rest) = merge (kept.update key v.fill) rest := by
  rw [merge]
  rfl

theorem get?_merge (kept incoming : Fragment) (key : String) :
    get? (merge kept incoming) key =
      Value.mergeAll ((get? kept key).toList ++ valuesAt incoming key) := by
  induction incoming generalizing kept with
  | nil => cases h : get? kept key <;> simp [valuesAt, Value.mergeAll, h]
  | cons e rest ih =>
    obtain ⟨k, v⟩ := e
    rw [merge_cons, ih, get?_update, valuesAt_cons]
    by_cases h : k = key
    · subst key
      rw [if_pos rfl, if_pos rfl, Value.fill_eq, Value.mergeAll_append]
      simp
    · rw [if_neg h, if_neg h]

theorem keys_merge {kept : Fragment} (hd : (keys kept).Nodup) (incoming : Fragment) :
    keys (merge kept incoming) = (keys kept ++ keys incoming).eraseDups := by
  induction incoming generalizing kept with
  | nil => simp [eraseDups_of_nodup hd]
  | cons e rest ih =>
    obtain ⟨k, v⟩ := e
    rw [merge_cons, ih (nodup_keys_update hd k _), keys_update]
    by_cases hk : k ∈ keys kept
    · simp [hk, List.eraseDups_append, List.removeAll]
    · simp [hk]

theorem nodup_keys_merge {kept : Fragment} (hd : (keys kept).Nodup) (incoming : Fragment) :
    (keys (merge kept incoming)).Nodup := by
  rw [keys_merge hd]
  exact nodup_eraseDups _

/-- Merging into the empty mapping changes nothing, at any depth. -/
theorem nil_merge {fragment : Fragment} (hd : (keys fragment).Nodup) :
    merge [] fragment = fragment := by
  have hk : keys (merge [] fragment) = keys fragment := by
    rw [keys_merge (by simp)]
    simp [eraseDups_of_nodup hd]
  apply ext_keys hk (hk ▸ hd)
  intro key
  rw [get?_merge, valuesAt_of_nodup hd]
  cases get? fragment key <;> rfl

theorem nodup_keys_foldl_merge {kept : Fragment} (hd : (keys kept).Nodup)
    (fragments : List Fragment) : (keys (fragments.foldl merge kept)).Nodup := by
  induction fragments generalizing kept with
  | nil => exact hd
  | cons f fs ih => exact ih (nodup_keys_merge hd f)

theorem keys_foldl_merge {kept : Fragment} (hd : (keys kept).Nodup) (fragments : List Fragment) :
    keys (fragments.foldl merge kept) = (keys kept ++ fragments.flatMap keys).eraseDups := by
  induction fragments generalizing kept with
  | nil => simp [eraseDups_of_nodup hd]
  | cons f fs ih =>
    rw [List.foldl_cons, ih (nodup_keys_merge hd f), keys_merge hd, eraseDups_append_left,
      List.flatMap_cons, List.append_assoc]

theorem get?_foldl_merge (kept : Fragment) (fragments : List Fragment) (key : String) :
    get? (fragments.foldl merge kept) key =
      Value.mergeAll ((get? kept key).toList ++ fragments.flatMap (valuesAt · key)) := by
  induction fragments generalizing kept with
  | nil => cases h : get? kept key <;> simp [Value.mergeAll, h]
  | cons f fs ih =>
    rw [List.foldl_cons, ih, get?_merge, Value.mergeAll_append, List.flatMap_cons,
      List.append_assoc]

theorem nodup_keys_mergeAll (fragments : List Fragment) : (keys (mergeAll fragments)).Nodup :=
  nodup_keys_foldl_merge (by simp) fragments

theorem keys_mergeAll (fragments : List Fragment) :
    keys (mergeAll fragments) = (fragments.flatMap keys).eraseDups :=
  @keys_foldl_merge [] List.nodup_nil fragments

theorem get?_mergeAll (fragments : List Fragment) (key : String) :
    get? (mergeAll fragments) key = Value.mergeAll (fragments.flatMap (valuesAt · key)) :=
  get?_foldl_merge [] fragments key

end Fragment
end FlatConfig
