import FlatConfig.Proofs.Merge
import FlatConfig.Proofs.Nested

/-!
What a merge has absorbed stays absorbed.

One value absorbs another when merging the other into it changes nothing. Whatever has been merged
in is absorbed (`Value.absorbs_merge`), and it stays so through every later merge
(`Value.Absorbs.merge`). So a fragment that comes a second time contributes nothing
(`Fragment.mergeAll_repeated`).
-/

set_option autoImplicit false

namespace FlatConfig

def Value.Absorbs (kept incoming : Value) : Prop := kept.merge incoming = kept

/-- Merging `incoming` changes nothing, not even the order of keys. -/
def Fragment.Absorbs (kept incoming : Fragment) : Prop := Fragment.merge kept incoming = kept

namespace Fragment

theorem get?_merge_of_nodup (kept : Fragment) {incoming : Fragment} (hd : incoming.keys.Nodup)
    (key : String) :
    get? (merge kept incoming) key =
      match get? incoming key with
      | none => get? kept key
      | some w => some (w.fill (get? kept key)) := by
  rw [get?_merge, valuesAt_of_nodup hd]
  cases get? incoming key with
  | none => cases get? kept key <;> rfl
  | some w => exact (Value.fill_eq w _).symm

/-- Every key is there already, with a value that absorbs the one that comes. -/
theorem absorbs_iff {kept incoming : Fragment} (hk : kept.keys.Nodup)
    (hi : incoming.keys.Nodup) :
    kept.Absorbs incoming ↔
      ∀ key w, get? incoming key = some w → ∃ v, get? kept key = some v ∧ v.Absorbs w := by
  constructor
  · intro h key w hw
    have hget : get? (merge kept incoming) key = get? kept key := by rw [h]
    rw [get?_merge_of_nodup kept hi, hw] at hget
    cases hv : get? kept key with
    | none => simp [hv] at hget
    | some v =>
      rw [hv] at hget
      exact ⟨v, rfl, Option.some.inj hget⟩
  · intro h
    have hsubset : ∀ key ∈ keys incoming, key ∈ keys kept := by
      intro key hkey
      obtain ⟨w, hw⟩ := Option.isSome_iff_exists.mp (get?_isSome_iff.mpr hkey)
      obtain ⟨v, hv, _⟩ := h key w hw
      exact get?_isSome_iff.mp (by simp [hv])
    have hkeys : keys (merge kept incoming) = keys kept := by
      have hnone : (keys incoming).removeAll (keys kept) = [] := by
        simpa [List.removeAll] using hsubset
      rw [keys_merge hk, List.eraseDups_append, hnone, eraseDups_of_nodup hk]
      simp
    refine ext_keys hkeys (hkeys ▸ hk) fun key => ?_
    rw [get?_merge_of_nodup kept hi]
    cases hw : get? incoming key with
    | none => rfl
    | some w =>
      obtain ⟨v, hv, habsorbs⟩ := h key w hw
      rw [hv]
      exact congrArg some habsorbs

end Fragment

namespace Value

theorem absorbs_mapping_iff {a b : Fragment} :
    (mapping a).Absorbs (.mapping b) ↔ a.Absorbs b := by
  simp [Absorbs, merge, Fragment.Absorbs]

theorem distinct_merge {v w : Value} (hv : v.Distinct) (hw : w.Distinct) :
    (v.merge w).Distinct := by
  induction w using induction_nested generalizing v with
  | mapping incoming ih =>
    cases v with
    | null => rwa [null_merge]
    | mapping kept =>
      have hi := distinct_mapping_iff.mp hw
      refine distinct_mapping_iff.mpr ⟨Fragment.nodup_keys_merge hv.1 incoming, ?_⟩
      intro key u hu
      rw [Fragment.get?_merge_of_nodup kept hi.1] at hu
      cases hget : incoming.get? key with
      | none => exact Fragment.distinct_of_get? hv (by simpa [hget] using hu)
      | some w =>
        have hw := hi.2 key w hget
        cases hkept : Fragment.get? kept key with
        | none => simp_all [fill]
        | some v' =>
          have hv' := ih key w hget (Fragment.distinct_of_get? hv hkept) hw
          simp_all [fill]
    | _ => exact hv
  | _ => cases v <;> assumption

theorem absorbs_merge {v w : Value} (hv : v.Distinct) (hw : w.Distinct) :
    (v.merge w).Absorbs w := by
  induction w using induction_nested generalizing v with
  | mapping incoming ih =>
    have hfragment : ∀ kept : Fragment, (mapping kept).Distinct →
        Fragment.Absorbs (Fragment.merge kept incoming) incoming := by
      intro kept hkept
      rw [Fragment.absorbs_iff (Fragment.nodup_keys_merge hkept.1 _) hw.1]
      intro key w hget
      have hw' := Fragment.distinct_of_get? hw hget
      refine ⟨w.fill (kept.get? key), by rw [Fragment.get?_merge_of_nodup _ hw.1, hget], ?_⟩
      cases hv : kept.get? key with
      | none => simpa [fill] using @ih key w hget .null trivial hw'
      | some v => exact ih key w hget (Fragment.distinct_of_get? hkept hv) hw'
    cases v with
    | null =>
      have hself := hfragment [] (by simp [Distinct, DistinctEntries])
      rw [Fragment.nil_merge hw.1] at hself
      rw [null_merge]
      exact absorbs_mapping_iff.mpr hself
    | mapping kept => exact absorbs_mapping_iff.mpr (hfragment kept hv)
    | _ => rfl
  | _ => cases v <;> rfl

/-- What is absorbed stays absorbed, whatever is merged next. -/
theorem Absorbs.merge {v w u : Value} (h : v.Absorbs w) (hv : v.Distinct) (hw : w.Distinct)
    (hu : u.Distinct) : (v.merge u).Absorbs w := by
  induction w using induction_nested generalizing v u with
  | mapping incoming ih =>
    cases v with
    | null => simp [Absorbs] at h
    | mapping kept =>
      cases u with
      | mapping later =>
        rw [absorbs_mapping_iff, Fragment.absorbs_iff hv.1 hw.1] at h
        apply absorbs_mapping_iff.mpr
        rw [Fragment.absorbs_iff (Fragment.nodup_keys_merge hv.1 _) hw.1]
        intro key w hget
        obtain ⟨v, hkept, habsorbs⟩ := h key w hget
        rw [Fragment.get?_merge_of_nodup kept hu.1, hkept]
        cases hlater : Fragment.get? later key with
        | none => exact ⟨v, rfl, habsorbs⟩
        | some u =>
          refine ⟨v.merge u, rfl, ?_⟩
          exact ih key w hget habsorbs (Fragment.distinct_of_get? hv hkept)
            (Fragment.distinct_of_get? hw hget) (Fragment.distinct_of_get? hu hlater)
      | _ => exact h
    | _ => cases u <;> exact h
  | null => cases v <;> cases u <;> rfl
  -- what is no mapping is absorbed by whatever is set, and that is never replaced
  | _ =>
    cases v with
    | null => simp [Absorbs] at h
    | _ => cases u <;> rfl

end Value

namespace Fragment

theorem distinct_merge {kept incoming : Fragment} (hk : (Value.mapping kept).Distinct)
    (hi : (Value.mapping incoming).Distinct) : (Value.mapping (merge kept incoming)).Distinct :=
  Value.distinct_merge hk hi

theorem distinct_foldl_merge {kept : Fragment} (hk : (Value.mapping kept).Distinct)
    {fragments : List Fragment} (hd : ∀ f ∈ fragments, (Value.mapping f).Distinct) :
    (Value.mapping (fragments.foldl merge kept)).Distinct := by
  induction fragments generalizing kept with
  | nil => exact hk
  | cons f rest ih =>
    obtain ⟨hf, hrest⟩ := List.forall_mem_cons.mp hd
    exact ih (distinct_merge hk hf) hrest

theorem Absorbs.foldl {kept fragment : Fragment} (h : kept.Absorbs fragment)
    (hk : (Value.mapping kept).Distinct) (hf : (Value.mapping fragment).Distinct)
    {later : List Fragment} (hd : ∀ g ∈ later, (Value.mapping g).Distinct) :
    Absorbs (later.foldl merge kept) fragment := by
  induction later generalizing kept with
  | nil => exact h
  | cons g rest ih =>
    obtain ⟨hg, hrest⟩ := List.forall_mem_cons.mp hd
    have hnext : Absorbs (merge kept g) fragment :=
      Value.absorbs_mapping_iff.mp ((Value.absorbs_mapping_iff.mpr h).merge hk hf hg)
    exact ih hnext (distinct_merge hk hg) hrest

/-- A fragment contributes nothing where it comes again. -/
theorem mergeAll_repeated {before between : List Fragment} {fragment : Fragment}
    (hd : ∀ f ∈ before ++ [fragment] ++ between, (Value.mapping f).Distinct)
    (after : List Fragment) :
    mergeAll (before ++ [fragment] ++ between ++ [fragment] ++ after) =
      mergeAll (before ++ [fragment] ++ between ++ after) := by
  simp only [List.mem_append, or_imp, forall_and, List.mem_singleton, forall_eq] at hd
  obtain ⟨⟨hbefore, hfragment⟩, hbetween⟩ := hd
  have hempty : (Value.mapping []).Distinct := by simp [Value.Distinct, Value.DistinctEntries]
  have hkept := distinct_foldl_merge hempty hbefore
  have hmerged : Absorbs (merge (before.foldl merge []) fragment) fragment :=
    Value.absorbs_mapping_iff.mp (Value.absorbs_merge hkept hfragment)
  have habsorbs : merge (between.foldl merge (merge (before.foldl merge []) fragment)) fragment =
      between.foldl merge (merge (before.foldl merge []) fragment) :=
    hmerged.foldl (distinct_merge hkept hfragment) hfragment hbetween
  simp only [mergeAll, List.foldl_append, List.foldl_cons, List.foldl_nil, habsorbs]

def house : Fragment :=
  [("tone", .string "kind"), ("tools", .mapping [("lint", .bool true)]),
    ("reviews", .mapping [("level", .null)])]

def beforeHouse : Fragment := [("tools", .string "none"), ("tone", .null)]

def afterHouse : Fragment :=
  [("reviews", .mapping [("level", .string "high"), ("lint", .null)]), ("tone", .string "harsh")]

theorem mergeAll_house :
    (∀ f ∈ [beforeHouse] ++ [house] ++ [afterHouse], (Value.mapping f).Distinct) ∧
      mergeAll [beforeHouse, house, afterHouse, house, [("level", .null)]] =
        mergeAll [beforeHouse, house, afterHouse, [("level", .null)]] ∧
      mergeAll [beforeHouse, house, afterHouse, house, [("level", .null)]] =
        [("tools", .string "none"), ("tone", .string "kind"),
          ("reviews", .mapping [("level", .string "high"), ("lint", .null)]),
          ("level", .null)] := by
  have hd : ∀ f ∈ [beforeHouse] ++ [house] ++ [afterHouse], (Value.mapping f).Distinct := by
    simp [beforeHouse, house, afterHouse, keys, Value.Distinct, Value.DistinctEntries]
  exact ⟨hd, mergeAll_repeated hd [[("level", .null)]], rfl⟩

end Fragment
end FlatConfig
