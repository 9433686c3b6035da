import FlatConfig.Proofs.Nested
import Mathlib.Data.List.Perm.Subperm

set_option autoImplicit false

namespace FlatConfig

theorem Number.same_refl (n : Number) : n.same n = true := by
  cases n <;> simp [same, Binary64.same]

theorem Number.same_comm (m n : Number) : m.same n = n.same m := by
  cases m with
  | integer m => cases n <;> simp [same, Bool.beq_comm]
  | float x =>
    cases n with
    | integer n => rfl
    | float y => simp [same, Binary64.same, Bool.beq_comm, Bool.and_comm]

namespace Value

theorem sameItems_iff {as bs : List Value} :
    sameItems as bs = true ↔ List.Forall₂ (fun a b => a.same b = true) as bs := by
  induction as generalizing bs with
  | nil => cases bs <;> simp [sameItems]
  | cons a as ih => cases bs <;> simp [sameItems, ih]

theorem sameEntries_iff {as bs : Fragment} :
    sameEntries as bs = true ↔
      ∀ e ∈ as, ∃ w, bs.get? e.1 = some w ∧ e.2.same w = true := by
  induction as with
  | nil => simp [sameEntries]
  | cons e as ih =>
    obtain ⟨k, v⟩ := e
    cases h : bs.get? k <;> simp [sameEntries, ih, h]

/-- The keys are the same in some order, and so are the values at each of them. -/
theorem same_mapping_iff {a b : Fragment} (ha : a.keys.Nodup) :
    same (.mapping a) (.mapping b) = true ↔
      a.keys.Perm b.keys ∧
        ∀ key v w, a.get? key = some v → b.get? key = some w → v.same w = true := by
  rw [same, Bool.and_eq_true, beq_iff_eq, sameEntries_iff]
  constructor
  · rintro ⟨hlength, hentries⟩
    refine ⟨?_, ?_⟩
    · have hsubset : a.keys ⊆ b.keys := by
        intro key hkey
        obtain ⟨e, he, rfl⟩ := List.mem_map.mp hkey
        obtain ⟨w, hw, _⟩ := hentries e he
        exact Fragment.get?_isSome_iff.mp (by simp [hw])
      apply (List.subperm_of_subset ha hsubset).perm_of_length_le
      simp [Fragment.keys, hlength]
    · intro key v w hv hw
      obtain ⟨u, hu, hsame⟩ := hentries (key, v) (Fragment.mem_of_get? hv)
      obtain rfl : u = w := Option.some.inj (hu.symm.trans hw)
      exact hsame
  · rintro ⟨hkeys, hvalues⟩
    refine ⟨by simpa [Fragment.keys] using hkeys.length_eq, ?_⟩
    intro e he
    have hkey : e.1 ∈ b.keys := hkeys.mem_iff.mp (List.mem_map_of_mem he)
    obtain ⟨w, hw⟩ := Option.isSome_iff_exists.mp (Fragment.get?_isSome_iff.mpr hkey)
    exact ⟨w, hw, hvalues _ _ _ (Fragment.get?_of_mem ha he) hw⟩

theorem same_refl {v : Value} (hd : v.Distinct) : v.same v = true := by
  induction v using induction_nested with
  | null => rfl
  | bool b => simp [same]
  | number n => exact n.same_refl
  | string s => simp [same]
  | list items ih =>
    rw [same, sameItems_iff, List.forall₂_same]
    exact fun item h => ih item h (distinctItems_iff.mp hd item h)
  | mapping entries ih =>
    rw [same_mapping_iff hd.1]
    refine ⟨.refl _, ?_⟩
    intro key v w hv hw
    obtain rfl : v = w := Option.some.inj (hv.symm.trans hw)
    exact ih key v hv (Fragment.distinct_of_get? hd hv)

theorem forall₂_swap {α : Type} {R : α → α → Prop} {as bs : List α} (h : List.Forall₂ R as bs)
    (hswap : ∀ a ∈ as, ∀ b ∈ bs, R a b → R b a) : List.Forall₂ R bs as := by
  induction h with
  | nil => exact .nil
  | cons hab _ ih =>
    have hrest := ih fun a ha b hb => hswap a (by simp [ha]) b (by simp [hb])
    exact .cons (hswap _ (by simp) _ (by simp) hab) hrest

theorem same_symm {v w : Value} (hv : v.Distinct) (hw : w.Distinct) (h : v.same w = true) :
    w.same v = true := by
  induction v using induction_nested generalizing w with
  | list items ih =>
    cases w with
    | list others =>
      rw [same, sameItems_iff] at h ⊢
      apply forall₂_swap h
      intro a ha b hb hab
      exact ih a ha (distinctItems_iff.mp hv a ha) (distinctItems_iff.mp hw b hb) hab
    | _ => simp [same] at h
  | mapping entries ih =>
    cases w with
    | mapping others =>
      rw [same_mapping_iff hv.1] at h
      rw [same_mapping_iff hw.1]
      refine ⟨h.1.symm, ?_⟩
      intro key u x hu hx
      exact ih key x hx (Fragment.distinct_of_get? hv hx) (Fragment.distinct_of_get? hw hu)
        (h.2 key x u hx hu)
    | _ => simp [same] at h
  | number n =>
    cases w with
    | number m => exact (Number.same_comm m n).trans h
    | _ => simp [same] at h
  | _ => cases w <;> simp_all [same]

/-- The order of keys does not matter at any depth. A number is equal to numbers of its kind only,
and there is one zero among the floats. -/
inductive Equal : Value → Value → Prop where
  | null : Equal .null .null
  | bool (b : Bool) : Equal (.bool b) (.bool b)
  | integer (n : Int) : Equal (.number (.integer n)) (.number (.integer n))
  | float {x y : Binary64} (h : x = y ∨ x.mantissa = 0 ∧ y.mantissa = 0) :
      Equal (.number (.float x)) (.number (.float y))
  | string (s : String) : Equal (.string s) (.string s)
  | list {as bs : List Value} (hlength : as.length = bs.length)
      (h : ∀ (i : Nat) (a b : Value), as[i]? = some a → bs[i]? = some b → Equal a b) :
      Equal (.list as) (.list bs)
  | mapping {a b : Fragment} (hkeys : a.keys.Perm b.keys)
      (h : ∀ key v w, a.get? key = some v → b.get? key = some w → Equal v w) :
      Equal (.mapping a) (.mapping b)

theorem equal_float_iff {x y : Binary64} :
    Equal (.number (.float x)) (.number (.float y)) ↔
      x = y ∨ x.mantissa = 0 ∧ y.mantissa = 0 :=
  ⟨fun | .float h => h, .float⟩

theorem equal_list_iff {as bs : List Value} :
    Equal (.list as) (.list bs) ↔ List.Forall₂ Equal as bs := by
  rw [List.forall₂_iff_get]
  constructor
  · intro h
    cases h with
    | list hlength h =>
      exact ⟨hlength, fun i ha hb =>
        h i _ _ (List.getElem?_eq_getElem ha) (List.getElem?_eq_getElem hb)⟩
  · rintro ⟨hlength, h⟩
    refine .list hlength fun i a b ha hb => ?_
    obtain ⟨hi, rfl⟩ := List.getElem?_eq_some_iff.mp ha
    obtain ⟨hj, rfl⟩ := List.getElem?_eq_some_iff.mp hb
    exact h i hi hj

theorem Equal.refl (v : Value) : v.Equal v := by
  induction v using induction_nested with
  | null => exact .null
  | bool b => exact .bool b
  | number n =>
    cases n with
    | integer n => exact .integer n
    | float x => exact .float (.inl rfl)
  | string s => exact .string s
  | list items ih => exact equal_list_iff.mpr (List.forall₂_same.mpr ih)
  | mapping entries ih =>
    refine .mapping (.refl _) fun key v w hv hw => ?_
    obtain rfl := Option.some.inj (hv.symm.trans hw)
    exact ih key v hv

theorem Equal.symm {v w : Value} (h : v.Equal w) : w.Equal v := by
  induction h with
  | null => exact .null
  | bool b => exact .bool b
  | integer n => exact .integer n
  | float h => exact .float (h.imp Eq.symm And.symm)
  | string s => exact .string s
  | list hlength _ ih => exact .list hlength.symm fun i a b ha hb => ih i b a hb ha
  | mapping hkeys _ ih => exact .mapping hkeys.symm fun key v w hv hw => ih key w v hw hv

theorem Equal.trans {u v w : Value} (huv : u.Equal v) (hvw : v.Equal w) : u.Equal w := by
  induction huv generalizing w with
  | @list as bs hlength _ ih =>
    cases hvw with
    | @list _ cs hlength' h =>
      refine .list (hlength.trans hlength') fun i a c ha hc => ?_
      have hi : i < bs.length := by
        obtain ⟨hi, _⟩ := List.getElem?_eq_some_iff.mp hc
        rwa [hlength']
      have hb := List.getElem?_eq_getElem hi
      exact ih i a _ ha hb (h i _ c hb hc)
  | @mapping a b hkeys _ ih =>
    cases hvw with
    | mapping hkeys' h =>
      refine .mapping (hkeys.trans hkeys') fun key x z hx hz => ?_
      have hkey : key ∈ b.keys := hkeys.mem_iff.mp (Fragment.get?_isSome_iff.mp (by simp [hx]))
      obtain ⟨y, hy⟩ := Option.isSome_iff_exists.mp (Fragment.get?_isSome_iff.mpr hkey)
      exact ih key x y hx hy (h key y z hy hz)
  | float hxy =>
    cases hvw with
    | float hyz => exact .float (by grind)
  | _ => exact hvw

theorem equal_of_same {v w : Value} (hd : v.Distinct) (h : v.same w = true) : v.Equal w := by
  induction v using induction_nested generalizing w with
  | list items ih =>
    cases w with
    | list others =>
      rw [same, sameItems_iff, List.forall₂_iff_get] at h
      rw [equal_list_iff, List.forall₂_iff_get]
      refine ⟨h.1, fun i hi hj => ?_⟩
      have hitem := List.getElem_mem hi
      exact ih _ hitem (distinctItems_iff.mp hd _ hitem) (h.2 i hi hj)
    | _ => simp [same] at h
  | mapping entries ih =>
    cases w with
    | mapping others =>
      rw [same_mapping_iff hd.1] at h
      exact .mapping h.1 fun key v w hv hw =>
        ih key v hv (Fragment.distinct_of_get? hd hv) (h.2 key v w hv hw)
    | _ => simp [same] at h
  | number n =>
    cases w with
    | number m =>
      cases n <;> cases m <;>
        simp_all [same, Number.same, Binary64.same, Binary64.isZero, Equal.refl, equal_float_iff]
    | _ => simp [same] at h
  | _ => cases w <;> simp_all [same, Equal.refl]

theorem same_of_equal {v w : Value} (hd : v.Distinct) (h : v.Equal w) : v.same w = true := by
  induction h with
  | null => rfl
  | bool b => simp [same]
  | integer n => simp [same, Number.same]
  | float h => simpa [same, Number.same, Binary64.same, Binary64.isZero] using h
  | string s => simp [same]
  | @list as bs hlength _ ih =>
    rw [same, sameItems_iff, List.forall₂_iff_get]
    refine ⟨hlength, fun i hi hj => ?_⟩
    exact ih i _ _ (List.getElem?_eq_getElem hi) (List.getElem?_eq_getElem hj)
      (distinctItems_iff.mp hd _ (List.getElem_mem hi))
  | mapping hkeys _ ih =>
    rw [same_mapping_iff hd.1]
    exact ⟨hkeys, fun key v w hv hw => ih key v w hv hw (Fragment.distinct_of_get? hd hv)⟩

/-- On values with distinct keys the test of the library is this equality. -/
theorem same_iff_equal {v w : Value} (hd : v.Distinct) : v.same w = true ↔ v.Equal w :=
  ⟨equal_of_same hd, same_of_equal hd⟩

end Value
end FlatConfig
