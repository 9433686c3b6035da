import FlatConfig.Text.Match

set_option autoImplicit false

namespace FlatConfig.Text

theorem strip?_append (front rest : List Char) : strip? front (front ++ rest) = some rest :=
  strip?_eq_some.mpr rfl

theorem strip?_append_left {front back text : List Char} (h : strip? front text = none) :
    strip? (front ++ back) text = none := by
  cases hstrip : strip? (front ++ back) text with
  | none => rfl
  | some rest =>
    rw [strip?_eq_some, List.append_assoc] at hstrip
    rw [hstrip, strip?_append] at h
    cases h

/-- Nothing is found at any place of a text while `rest` stands behind it. -/
def Misses {β : Type} (find : List Char → Option β) (rest : List Char) : List Char → Prop
  | [] => True
  | c :: front => find (c :: front ++ rest) = none ∧ Misses find rest front

theorem Misses.append {β : Type} {find : List Char → Option β} {rest front back : List Char}
    (hfront : Misses find (back ++ rest) front) (hback : Misses find rest back) :
    Misses find rest (front ++ back) := by
  induction front with
  | nil => exact hback
  | cons c front ih =>
    obtain ⟨hc, hfront⟩ := hfront
    refine ⟨?_, ih hfront⟩
    simpa using hc

section
variable {α : Type} {find : Matcher α} {front rest : List Char}

theorem piecesAfter_append (front rest : List Char) :
    piecesAfter find front.length (front ++ rest) = pieces find rest := by
  induction front with
  | nil => rfl
  | cons c front ih => exact ih

theorem pieces_of_found {a : α} (hfront : front ≠ []) (h : find (front ++ rest) = some (a, rest)) :
    pieces find (front ++ rest) = .found a :: pieces find rest := by
  cases front with
  | nil => exact absurd rfl hfront
  | cons c front =>
    have hlength : (front ++ rest).length - rest.length = front.length := by simp
    rw [List.cons_append] at h
    rw [List.cons_append, pieces, piecesAfter, h]
    simp only [hlength, piecesAfter_append]

theorem pieces_of_misses (h : Misses find rest front) :
    pieces find (front ++ rest) = front.map .char ++ pieces find rest := by
  induction front with
  | nil => rfl
  | cons c front ih =>
    obtain ⟨hc, hfront⟩ := h
    rw [List.cons_append] at hc
    rw [List.cons_append, pieces, piecesAfter, hc, List.map_cons, List.cons_append]
    exact congrArg _ (ih hfront)

variable {image : α → List Char}

theorem replace_of_found {a : α} (hfront : front ≠ [])
    (h : find (front ++ rest) = some (a, rest)) :
    replace find image (front ++ rest) = image a ++ replace find image rest := by
  rw [replace, pieces_of_found hfront h]
  rfl

theorem replace_of_misses (h : Misses find rest front) :
    replace find image (front ++ rest) = front ++ replace find image rest := by
  have hfront : (front.flatMap fun c => [c]) = front := List.flatMap_singleton' front
  rw [replace, pieces_of_misses h, List.flatMap_append, List.flatMap_map, hfront]
  rfl

end

section
variable {marker front rest : List Char}

theorem cut?_of_strip? {text : List Char} (h : strip? marker text = some rest) :
    cut? marker text = some ([], rest) := by
  cases text with
  | nil => simp [cut?, h]
  | cons c text => simp [cut?, h]

theorem cut?_of_misses (h : Misses (strip? marker) rest front) :
    cut? marker (front ++ rest) =
      (cut? marker rest).map fun (before, after) => (front ++ before, after) := by
  induction front with
  | nil => simp
  | cons c front ih =>
    obtain ⟨hc, hfront⟩ := h
    rw [List.cons_append] at hc
    rw [List.cons_append, cut?, hc, ih hfront, Option.map_map]
    rfl

theorem cut?_first (h : Misses (strip? marker) (marker ++ rest) front) :
    cut? marker (front ++ (marker ++ rest)) = some (front, rest) := by
  rw [cut?_of_misses h, cut?_of_strip? (strip?_append marker rest)]
  simp

theorem cut?_eq_some_iff {text : List Char} : cut? marker text = some (front, rest) ↔
    text = front ++ (marker ++ rest) ∧ Misses (strip? marker) (marker ++ rest) front := by
  refine ⟨fun h => ?_, fun ⟨htext, hmisses⟩ => htext ▸ cut?_first hmisses⟩
  induction text generalizing front with
  | nil =>
    obtain ⟨found, hfound, h⟩ := Option.map_eq_some_iff.mp h
    obtain ⟨rfl, rfl⟩ := Prod.mk.inj h
    refine ⟨?_, trivial⟩
    rwa [List.nil_append, ← strip?_eq_some]
  | cons c text ih =>
    rw [cut?] at h
    split at h
    · rename_i found hfound
      obtain ⟨rfl, rfl⟩ := Prod.mk.inj (Option.some.inj h)
      refine ⟨?_, trivial⟩
      rwa [List.nil_append, ← strip?_eq_some]
    · rename_i hnone
      obtain ⟨⟨before, after⟩, hcut, h⟩ := Option.map_eq_some_iff.mp h
      obtain ⟨rfl, rfl⟩ := Prod.mk.inj h
      obtain ⟨rfl, hmisses⟩ := ih hcut
      exact ⟨rfl, hnone, hmisses⟩

theorem contains_iff {text : List Char} : contains marker text = true ↔ marker <:+: text := by
  induction text with
  | nil => cases marker <;> simp [contains, cut?, strip?]
  | cons c text ih =>
    rw [List.infix_cons_iff, ← ih, contains, cut?]
    cases hstrip : strip? marker (c :: text) with
    | some rest =>
      have hfront : marker <+: c :: text := ⟨rest, (strip?_eq_some.mp hstrip).symm⟩
      simp [hfront]
    | none =>
      have hfront : ¬ marker <+: c :: text := by
        rintro ⟨rest, hrest⟩
        rw [← hrest, strip?_append] at hstrip
        cases hstrip
      simp [hfront, contains]

theorem Misses.not_infix (hmarker : marker ≠ []) (h : Misses (strip? marker) rest front) :
    ¬ marker <:+: front := by
  rintro ⟨before, after, rfl⟩
  rw [List.append_assoc] at h
  induction before with
  | nil =>
    obtain ⟨c, more, rfl⟩ := List.exists_cons_of_ne_nil hmarker
    have hmiss : strip? (c :: more) (c :: more ++ (after ++ rest)) = none := by simpa using h.1
    rw [strip?_append] at hmiss
    cases hmiss
  | cons c before ih => exact ih h.2

/-- A marker no beginning of which is an end of it cannot begin in a text and end in the same marker
behind the text. -/
theorem misses_of_not_infix
    (hborder : ∀ n < marker.length, 0 < n → ¬ marker.drop n <+: marker)
    (h : ¬ marker <:+: front) : Misses (strip? marker) (marker ++ rest) front := by
  induction front with
  | nil => trivial
  | cons c front ih =>
    refine ⟨?_, ih fun hinfix => h (List.infix_cons hinfix)⟩
    cases hstrip : strip? marker (c :: front ++ (marker ++ rest)) with
    | none => rfl
    | some found =>
      exfalso
      rw [strip?_eq_some] at hstrip
      rcases List.append_eq_append_iff.mp hstrip with ⟨more, hmarker, hmore⟩ | ⟨more, hfront, _⟩
      · have hdrop : marker.drop (c :: front).length = more := by rw [hmarker, List.drop_left]
        by_cases hnil : more = []
        · exact h ⟨[], [], by simp [hmarker, hnil]⟩
        · have hlength := congrArg List.length hmarker
          have hpos := List.length_pos_iff.mpr hnil
          rw [List.length_append] at hlength
          refine hborder (c :: front).length (by omega) (by simp) ?_
          rw [hdrop]
          exact List.prefix_of_prefix_length_le ⟨found, hmore.symm⟩ ⟨rest, rfl⟩ (by omega)
      · exact h ⟨[], more, by simp [hfront]⟩

theorem contains_eq_false (hmarker : marker ≠ []) (h : Misses (strip? marker) [] front) :
    contains marker front = false := by
  rw [Bool.eq_false_iff, Ne, contains_iff]
  exact h.not_infix hmarker

end

end FlatConfig.Text
