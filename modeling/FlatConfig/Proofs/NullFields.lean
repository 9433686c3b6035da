import FlatConfig.Extension
import FlatConfig.Proofs.Attempt
import FlatConfig.Proofs.Edit

/-!
Fields of records that are null.

Where a field is read with `Decoder.optional`, null is the same as leaving the field out
(`InstructionSet.decode_null_description` and its siblings). A field that only has a default may be
left out but must not be null: a record with such a null cannot be read
(`InstructionSource.decode_null_parameters`, `RuleCollection.decode_null_rules`).
-/

set_option autoImplicit false

namespace FlatConfig

namespace Decoder

variable {α : Type} {check : String → Decoder Unit} {key : String} {v : Value} {entries : Fragment}

theorem checkInOrder_cons (check : String → Decoder Unit) (k : String) (w : Value)
    (rest : Fragment) :
    checkInOrder check ((k, w) :: rest) = check k w >>= fun _ => checkInOrder check rest := rfl

theorem checkInOrder_insert (hv : check key v = .ok ()) (hd : entries.keys.Nodup) :
    checkInOrder check (entries.insert key v) = checkInOrder check (entries.erase key) := by
  induction entries with
  | nil =>
    change checkInOrder check [(key, v)] = _
    rw [checkInOrder_cons, hv]
    rfl
  | cons e rest ih =>
    obtain ⟨k, w⟩ := e
    obtain ⟨hk, hrest⟩ := List.nodup_cons.mp hd
    rw [Fragment.insert_cons, Fragment.erase_cons]
    by_cases h : k = key
    · subst h
      rw [if_pos rfl, if_pos rfl, Fragment.erase_of_not_mem hk, checkInOrder_cons, hv, ok_bind]
    · rw [if_neg h, if_neg h, checkInOrder_cons, checkInOrder_cons, ih hrest]

theorem checkInOrder_put_null (hnull : check key .null = .ok ()) (hd : entries.keys.Nodup) :
    checkInOrder check (entries.put key (some .null)) =
      checkInOrder check (entries.put key none) :=
  checkInOrder_insert hnull hd

theorem checkInOrder_insert_error {e : DecodeError}
    (hothers : checkInOrder check (entries.erase key) = .ok ()) (hv : check key v = .error e) :
    checkInOrder check (entries.insert key v) = .error e := by
  induction entries with
  | nil =>
    change checkInOrder check [(key, v)] = _
    rw [checkInOrder_cons, hv, error_bind]
  | cons entry rest ih =>
    obtain ⟨k, w⟩ := entry
    rw [Fragment.erase_cons] at hothers
    rw [Fragment.insert_cons]
    by_cases h : k = key
    · rw [if_pos h, checkInOrder_cons, h, hv, error_bind]
    · rw [if_neg h, checkInOrder_cons] at hothers
      obtain ⟨_, hfirst, hrest⟩ := bind_eq_ok.mp hothers
      rw [if_neg h, checkInOrder_cons, hfirst, ok_bind, ih hrest]

theorem field_put_null (entries : Fragment) (key : String) (item : Decoder α) :
    field (entries.put key (some .null)) key (optional item) = .ok (some none) := by
  rw [field, Fragment.get?_put, if_pos rfl]
  rfl

theorem field_put_none (entries : Fragment) (key : String) (item : Decoder α) :
    field (entries.put key none) key item = .ok none := by
  rw [field, Fragment.get?_put, if_pos rfl]

theorem field_put_of_ne (entries : Fragment) {other : String} (h : key ≠ other)
    (new : Option Value) (item : Decoder α) :
    field (entries.put key new) other item = field entries other item := by
  rw [field, field, Fragment.get?_put, if_neg h]

theorem field_eq_ok {item : Decoder α} {x : α} (h : field entries key item = .ok (some x)) :
    ∃ w, entries.get? key = some w ∧ item w = .ok x := by
  unfold field at h
  split at h
  · rename_i w hw
    obtain ⟨y, hy, hx⟩ := map_eq_ok.mp h
    exact ⟨w, hw, Option.some.inj hx ▸ hy⟩
  · cases h

theorem element_eq_ok {items : List Value} {index : Nat} {item : Decoder α} {x : α}
    (h : element items index item = .ok (some x)) :
    ∃ w, items[index]? = some w ∧ item w = .ok x := by
  unfold element at h
  split at h
  · rename_i w hw
    obtain ⟨y, hy, hx⟩ := map_eq_ok.mp h
    exact ⟨w, hw, Option.some.inj hx ▸ hy⟩
  · cases h

end Decoder

open Decoder

theorem InstructionSet.decode_null_description {v : Value} (hd : v.Distinct) :
    decode (v.putField "description" 0 (some .null)) =
      decode (v.putField "description" 0 none) := by
  cases v with
  | mapping entries =>
    have hnull : check "description" .null = .ok () := rfl
    have hne : "description" ≠ "instructions" := by decide
    simp only [Value.putField, decode, checkInOrder_put_null hnull hd.1, field_put_null,
      field_put_none, field_put_of_ne entries hne, ok_bind, Option.join_some, Option.join_none]
  | list items => rfl
  | _ => rfl

theorem RuleCollection.decode_null_description {v : Value} (hd : v.Distinct) :
    decode (v.putField "description" 0 (some .null)) =
      decode (v.putField "description" 0 none) := by
  cases v with
  | mapping entries =>
    have hnull : check "description" .null = .ok () := rfl
    have hrules : "description" ≠ "rules" := by decide
    have hpackages : "description" ≠ "packages" := by decide
    simp only [Value.putField, decode, checkInOrder_put_null hnull hd.1, field_put_null,
      field_put_none, field_put_of_ne entries hrules, field_put_of_ne entries hpackages, ok_bind,
      Option.join_some, Option.join_none]
  | list items => rfl
  | _ => rfl

theorem RuleCollection.decode_null_packages {v : Value} (hd : v.Distinct) :
    decode (v.putField "packages" 2 (some .null)) = decode (v.putField "packages" 2 none) := by
  cases v with
  | mapping entries =>
    have hnull : check "packages" .null = .ok () := rfl
    have hdescription : "packages" ≠ "description" := by decide
    have hrules : "packages" ≠ "rules" := by decide
    simp only [Value.putField, decode, checkInOrder_put_null hnull hd.1, field_put_null,
      field_put_none, field_put_of_ne entries hdescription, field_put_of_ne entries hrules,
      ok_bind, Option.join_some, Option.join_none]
  | list items =>
    cases items with
    | nil => rfl
    | cons description rest => cases rest <;> rfl
  | _ => rfl

theorem InstructionRef.decode_null_parameters {v : Value} {r : InstructionRef}
    (h : decode (v.putField "with" 1 none) = .ok r) :
    ∃ e, decode (v.putField "with" 1 (some .null)) = .error e := by
  cases v with
  | mapping entries =>
    rw [Value.putField, decode]
    cases hcheck : checkInOrder check (Fragment.put entries "with" (some .null)) with
    | error e => exact ⟨e, rfl⟩
    | ok =>
      have hget : (Fragment.put entries "with" (some .null)).get? "with" = some .null := by
        rw [Fragment.get?_put, if_pos rfl]
      have hpassed : check "with" .null = .ok () :=
        forM_eq_ok.mp hcheck _ (Fragment.mem_of_get? hget)
      cases hpassed
  | list items =>
    cases items with
    | nil => cases h
    | cons set _ => cases set <;> exact ⟨_, rfl⟩
  | _ => cases h

theorem InstructionSource.decode_eq_reference {v : Value} {r : InstructionRef}
    (h : decode v = .ok (.reference r)) : InstructionRef.decode v = .ok r := by
  unfold decode at h
  split at h
  · cases h
  · split at h
    · rename_i hr
      obtain rfl := InstructionSource.reference.inj (Except.ok.inj h)
      exact hr
    · cases h

theorem InstructionSource.decode_null_parameters {v : Value} {r : InstructionRef}
    (h : decode (v.putField "with" 1 none) = .ok (.reference r)) :
    decode (v.putField "with" 1 (some .null)) = .error .noVariant := by
  obtain ⟨e, he⟩ := InstructionRef.decode_null_parameters (decode_eq_reference h)
  unfold decode
  split
  · rename_i s hs
    cases v with
    | string _ => cases h
    | _ => cases hs
  · rw [he]

theorem PathInstruction.decode_eq_ok {v : Value} {instruction : PathInstruction}
    (h : decode v = .ok instruction) :
    ∃ source, v.field? "instructions" 1 = some source ∧
      InstructionSource.decode source = .ok instruction.instructions := by
  cases v with
  | mapping entries =>
    rw [decode] at h
    obtain ⟨_, _, h⟩ := bind_eq_ok.mp h
    obtain ⟨path, _, h⟩ := bind_eq_ok.mp h
    obtain ⟨instructions, hinstructions, h⟩ := bind_eq_ok.mp h
    cases path with
    | none => cases h
    | some path =>
      cases instructions with
      | none => cases h
      | some instructions =>
        obtain rfl := Except.ok.inj h
        exact field_eq_ok hinstructions
  | list items =>
    rw [decode] at h
    obtain ⟨path, _, h⟩ := bind_eq_ok.mp h
    cases path with
    | none => cases h
    | some path =>
      obtain ⟨instructions, hinstructions, h⟩ := bind_eq_ok.mp h
      cases instructions with
      | none => cases h
      | some instructions =>
        obtain ⟨_, _, h⟩ := bind_eq_ok.mp h
        obtain rfl := Except.ok.inj h
        exact element_eq_ok hinstructions
  | _ => cases h

/-- An instruction whose reference has null parameters cannot be read at all. -/
theorem PathInstruction.decode_null_parameters {v : Value} {path : String} {r : InstructionRef}
    (h : decode (v.adjustField "instructions" 1 (Value.putField "with" 1 none)) =
      .ok ⟨path, .reference r⟩) :
    ∃ e, decode (v.adjustField "instructions" 1 (Value.putField "with" 1 (some .null))) =
      .error e := by
  obtain ⟨absent, habsent, hreference⟩ := decode_eq_ok h
  rw [Value.field?_adjustField, Option.map_eq_some_iff] at habsent
  obtain ⟨source, hsource, rfl⟩ := habsent
  have hnull := InstructionSource.decode_null_parameters hreference
  cases hdecode :
      decode (v.adjustField "instructions" 1 (Value.putField "with" 1 (some .null))) with
  | error e => exact ⟨e, rfl⟩
  | ok instruction =>
    obtain ⟨found, hfound, hread⟩ := decode_eq_ok hdecode
    rw [Value.field?_adjustField, hsource] at hfound
    obtain rfl := Option.some.inj hfound
    rw [hnull] at hread
    cases hread

theorem RuleCollection.decode_null_rules {v : Value} {collection : RuleCollection}
    (h : decode (v.putField "rules" 1 none) = .ok collection) (hv : v ≠ .list []) :
    decode (v.putField "rules" 1 (some .null)) = .error (.invalidType .null .sequence) := by
  cases v with
  | mapping entries =>
    rw [Value.putField, decode] at h
    obtain ⟨_, hcheck, _⟩ := bind_eq_ok.mp h
    rw [Value.putField, decode, Fragment.put,
      checkInOrder_insert_error (e := .invalidType .null .sequence) hcheck rfl, error_bind]
  | list items =>
    cases items with
    | nil => exact absurd rfl hv
    | cons description _ =>
      obtain ⟨found, hfound, _⟩ := bind_eq_ok.mp h
      have hsame : element [description, .null] 0 (optional string) = .ok found := hfound
      change decode (.list [description, .null]) = _
      rw [decode, hsame, ok_bind]
      rfl
  | _ => cases h

end FlatConfig
