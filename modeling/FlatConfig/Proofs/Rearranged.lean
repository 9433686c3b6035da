import FlatConfig.Proofs.Same

set_option autoImplicit false

namespace FlatConfig

namespace Value

/-- Equal but for the order in which mappings, at any depth, list their keys. -/
inductive Rearranged : Value → Value → Prop where
  | refl (v : Value) : Rearranged v v
  | list {as bs : List Value} (hlength : as.length = bs.length)
      (h : ∀ (i : Nat) (a b : Value), as[i]? = some a → bs[i]? = some b → Rearranged a b) :
      Rearranged (.list as) (.list bs)
  | mapping {a b : Fragment} (hkeys : a.keys.Perm b.keys)
      (h : ∀ key v w, a.get? key = some v → b.get? key = some w → Rearranged v w) :
      Rearranged (.mapping a) (.mapping b)

theorem Rearranged.same {v w : Value} (h : Rearranged v w) (hd : v.Distinct) :
    v.same w = true := by
  induction h with
  | refl v => exact same_refl hd
  | @list as bs hlength _ ih =>
    rw [Value.same, sameItems_iff, List.forall₂_iff_get]
    refine ⟨hlength, fun i ha hb => ?_⟩
    exact ih i _ _ (List.getElem?_eq_getElem ha) (List.getElem?_eq_getElem hb)
      (distinctItems_iff.mp hd _ (List.get_mem as _))
  | mapping hkeys _ ih =>
    rw [same_mapping_iff hd.1]
    exact ⟨hkeys, fun key v w hv hw => ih key v w hv hw (Fragment.distinct_of_get? hd hv)⟩

end Value

namespace Fragment

theorem get?_insert_comm (fragment : Fragment) {k l : String} (hne : k ≠ l) (v w : Value)
    (other : String) :
    get? ((fragment.insert k v).insert l w) other =
      get? ((fragment.insert l w).insert k v) other := by
  simp only [get?_insert]
  by_cases hk : k = other
  · have hl : l ≠ other := fun hl => hne (hk.trans hl.symm)
    rw [if_neg hl, if_pos hk, if_pos hk]
  · rw [if_neg hk, if_neg hk]

def Rearranged (a b : Fragment) : Prop := Value.Rearranged (.mapping a) (.mapping b)

namespace Rearranged

theorem refl (fragment : Fragment) : Rearranged fragment fragment := Value.Rearranged.refl _

theorem of_get?_eq {a b : Fragment} (ha : (keys a).Nodup) (hb : (keys b).Nodup)
    (h : ∀ key, get? a key = get? b key) : Rearranged a b := by
  refine .mapping ?_ fun key v w hv hw => ?_
  · rw [List.perm_ext_iff_of_nodup ha hb]
    intro key
    rw [← get?_isSome_iff, ← get?_isSome_iff, h]
  · obtain rfl := Option.some.inj (hv.symm.trans ((h key).trans hw))
    exact .refl v

theorem insert {a b : Fragment} {key : String} {v w : Value}
    (hkeys : (keys (a.insert key v)).Perm (keys (b.insert key w)))
    (hothers : ∀ other, key ≠ other → get? a other = get? b other) (hvw : v.Rearranged w) :
    Rearranged (a.insert key v) (b.insert key w) := by
  refine .mapping hkeys fun other x y hx hy => ?_
  rw [get?_insert] at hx hy
  by_cases ho : key = other
  · rw [if_pos ho] at hx hy
    cases hx
    cases hy
    exact hvw
  · rw [if_neg ho] at hx hy
    rw [hothers other ho] at hx
    obtain rfl := Option.some.inj (hx.symm.trans hy)
    exact .refl x

theorem insert_comm (fragment : Fragment) {k l : String} (hne : k ≠ l) (v w : Value) :
    Rearranged ((fragment.insert k v).insert l w) ((fragment.insert l w).insert k v) := by
  refine .mapping ?_ fun other x y hx hy => ?_
  · simp only [keys_insert]
    by_cases hk : k ∈ keys fragment <;> by_cases hl : l ∈ keys fragment <;>
      simp [hk, hl, hne, Ne.symm hne]
    exact (List.Perm.swap l k []).append_left _
  · rw [get?_insert_comm fragment hne] at hx
    obtain rfl := Option.some.inj (hx.symm.trans hy)
    exact .refl x

end Rearranged
end Fragment
end FlatConfig
