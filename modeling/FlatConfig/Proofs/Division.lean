import FlatConfig.Proofs.Match

/-!
Texts cut into matches and gaps.

Where a matcher finds what is spelled in a certain way (`Finds`), a text has exactly one division in
which no match starts inside a gap (`Finds.exists_unique_division`). It is the one that a search
from left to right goes through (`Finds.pieces_text`).
-/

set_option autoImplicit false

namespace FlatConfig.Text

/-- The texts that are a match, each with what it is a match of. -/
abbrev Spelling (α : Type) := List Char → α → Prop

section
variable {α : Type} (spells : Spelling α)

def Begins (text : List Char) : Prop := ∃ front a rest, spells front a ∧ text = front ++ rest

/-- No match starts inside a gap while `rest` stands behind it. It might end in `rest`. -/
def Clear (gap rest : List Char) : Prop :=
  ∀ before after, gap = before ++ after → after ≠ [] → ¬ Begins spells (after ++ rest)

inductive Division (α : Type) where
  | last (gap : List Char)
  | found (gap front : List Char) (a : α) (rest : Division α)

namespace Division

def text : Division α → List Char
  | .last gap => gap
  | .found gap front _ rest => gap ++ (front ++ rest.text)

def replaced (image : α → List Char) : Division α → List Char
  | .last gap => gap
  | .found gap _ a rest => gap ++ (image a ++ rest.replaced image)

def values : Division α → List α
  | .last _ => []
  | .found _ _ a rest => a :: rest.values

def pieces : Division α → List (Piece α)
  | .last gap => gap.map .char
  | .found gap _ a rest => gap.map .char ++ .found a :: rest.pieces

def IsLeftmost : Division α → Prop
  | .last gap => Clear spells gap []
  | .found gap front a rest =>
    Clear spells gap (front ++ rest.text) ∧ spells front a ∧ rest.IsLeftmost

/-- The text is cut into matches, and into gaps in which no match starts. -/
structure Divides (text : List Char) (d : Division α) : Prop where
  text_eq : d.text = text
  leftmost : d.IsLeftmost spells

end Division

end

section
variable {α : Type} {spells : Spelling α}

theorem clear_nil (rest : List Char) : Clear spells [] rest := by
  intro before after h hafter
  exact absurd (List.append_eq_nil_iff.mp h.symm).2 hafter

theorem clear_cons_iff {c : Char} {gap rest : List Char} :
    Clear spells (c :: gap) rest ↔
      ¬ Begins spells (c :: gap ++ rest) ∧ Clear spells gap rest := by
  constructor
  · intro h
    refine ⟨h [] (c :: gap) rfl (by simp), fun before after hgap hafter => ?_⟩
    exact h (c :: before) after (by rw [hgap]; rfl) hafter
  · rintro ⟨hc, hgap⟩ before after heq hafter
    cases before with
    | nil =>
      obtain rfl : c :: gap = after := heq
      exact hc
    | cons d before =>
      obtain ⟨_, rfl⟩ := List.cons.inj heq
      exact hgap before after rfl hafter

/-- Of two gaps in front of a match, in one text, none goes on where the other ends. -/
theorem Clear.gap_eq {gap gap' behind behind' : List Char} (hgap : Clear spells gap behind)
    (hgap' : Clear spells gap' behind') (hbehind : Begins spells behind)
    (hbehind' : Begins spells behind') (h : gap ++ behind = gap' ++ behind') :
    gap = gap' ∧ behind = behind' := by
  rcases List.append_eq_append_iff.mp h with ⟨more, rfl, rfl⟩ | ⟨more, rfl, rfl⟩
  · by_cases hmore : more = []
    · simp [hmore]
    · exact absurd hbehind (hgap' gap more rfl hmore)
  · by_cases hmore : more = []
    · simp [hmore]
    · exact absurd hbehind' (hgap gap' more rfl hmore)

/-- The matcher finds what is spelled at the front of a text, and nothing else. -/
structure Finds (find : Matcher α) (spells : Spelling α) : Prop where
  eq_some_iff : ∀ {text : List Char} {a : α} {rest : List Char},
    find text = some (a, rest) ↔ ∃ front, spells front a ∧ text = front ++ rest
  ne_nil : ∀ {front : List Char} {a : α}, spells front a → front ≠ []

namespace Finds
variable {find : Matcher α} (h : Finds find spells)
include h

theorem eq_none_iff {text : List Char} : find text = none ↔ ¬ Begins spells text := by
  rw [Option.eq_none_iff_forall_ne_some, Begins]
  constructor
  · rintro hnone ⟨front, a, rest, hspells, htext⟩
    exact hnone (a, rest) (h.eq_some_iff.mpr ⟨front, hspells, htext⟩)
  · rintro hnone ⟨a, rest⟩ hfind
    obtain ⟨front, hspells, htext⟩ := h.eq_some_iff.mp hfind
    exact hnone ⟨front, a, rest, hspells, htext⟩

theorem misses_iff_clear {gap rest : List Char} : Misses find rest gap ↔ Clear spells gap rest := by
  induction gap with
  | nil => exact iff_of_true trivial (clear_nil rest)
  | cons c gap ih => rw [Misses, clear_cons_iff, h.eq_none_iff, ih]

/-- What is found in one way is not found in another. -/
theorem front_eq {front front' rest rest' : List Char} {a b : α} (ha : spells front a)
    (hb : spells front' b) (heq : front ++ rest = front' ++ rest') :
    front = front' ∧ a = b ∧ rest = rest' := by
  have hfound : find (front ++ rest) = some (a, rest) := h.eq_some_iff.mpr ⟨front, ha, rfl⟩
  have hfound' : find (front ++ rest) = some (b, rest') := h.eq_some_iff.mpr ⟨front', hb, heq⟩
  obtain ⟨rfl, rfl⟩ := Prod.mk.inj (Option.some.inj (hfound.symm.trans hfound'))
  exact ⟨List.append_cancel_right heq, rfl, rfl⟩

theorem exists_divides (text : List Char) : ∃ d : Division α, d.Divides spells text := by
  match text with
  | [] => exact ⟨.last [], rfl, clear_nil []⟩
  | c :: text =>
    cases hfind : find (c :: text) with
    | none =>
      have hc : ¬ Begins spells (c :: text) := h.eq_none_iff.mp hfind
      obtain ⟨d, rfl, hd⟩ := exists_divides text
      cases d with
      | last gap =>
        have hgap : ¬ Begins spells (c :: gap ++ []) := by rwa [List.append_nil]
        exact ⟨.last (c :: gap), rfl, clear_cons_iff.mpr ⟨hgap, hd⟩⟩
      | found gap front a rest =>
        obtain ⟨hgap, hrest⟩ := hd
        exact ⟨.found (c :: gap) front a rest, rfl, clear_cons_iff.mpr ⟨hc, hgap⟩, hrest⟩
    | some found =>
      obtain ⟨a, rest⟩ := found
      obtain ⟨front, hfront, htext⟩ := h.eq_some_iff.mp hfind
      have hlt : rest.length < (c :: text).length := by
        have := List.length_pos_iff.mpr (h.ne_nil hfront)
        rw [htext, List.length_append]
        omega
      obtain ⟨d, rfl, hd⟩ := exists_divides rest
      exact ⟨.found [] front a d, htext.symm, clear_nil _, hfront, hd⟩
termination_by text.length
decreasing_by
  · exact Nat.lt_succ_self text.length
  · exact hlt

theorem leftmost_unique {d e : Division α} (hd : d.IsLeftmost spells) (he : e.IsLeftmost spells)
    (htext : d.text = e.text) : d = e := by
  -- no gap that goes on to the end of the text has a match inside
  have hends {gap front rest : List Char} {a : α} (hgap : Clear spells gap [])
      (hfront : spells front a) {before : List Char} : gap ≠ before ++ (front ++ rest) := by
    intro heq
    refine hgap before (front ++ rest) heq ?_ ⟨front, a, rest, hfront, List.append_nil _⟩
    exact List.append_ne_nil_of_left_ne_nil (h.ne_nil hfront) rest
  induction d generalizing e with
  | last gap =>
    cases e with
    | last gap' => exact congrArg _ htext
    | found gap' front' b rest' => exact absurd htext (hends hd he.2.1)
  | found gap front a rest ih =>
    cases e with
    | last gap' => exact absurd htext.symm (hends he hd.2.1)
    | found gap' front' b rest' =>
      obtain ⟨hgap, hfront, hrest⟩ := hd
      obtain ⟨hgap', hfront', hrest'⟩ := he
      obtain ⟨rfl, hbehind⟩ := hgap.gap_eq hgap' ⟨front, a, rest.text, hfront, rfl⟩
        ⟨front', b, rest'.text, hfront', rfl⟩ htext
      obtain ⟨rfl, rfl, hbehind⟩ := h.front_eq hfront hfront' hbehind
      rw [ih hrest hrest' hbehind]

theorem exists_unique_division (text : List Char) :
    ∃ d : Division α, d.Divides spells text ∧
      ∀ e : Division α, e.Divides spells text → e = d := by
  obtain ⟨d, hd⟩ := h.exists_divides text
  refine ⟨d, hd, fun e he => ?_⟩
  exact h.leftmost_unique he.leftmost hd.leftmost (he.text_eq.trans hd.text_eq.symm)

theorem pieces_text {d : Division α} (hd : d.IsLeftmost spells) :
    Text.pieces find d.text = d.pieces := by
  induction d with
  | last gap =>
    have hmisses := pieces_of_misses (h.misses_iff_clear.mpr hd)
    rw [List.append_nil] at hmisses
    exact hmisses.trans (List.append_nil _)
  | found gap front a rest ih =>
    obtain ⟨hgap, hfront, hrest⟩ := hd
    rw [Division.text, pieces_of_misses (h.misses_iff_clear.mpr hgap),
      pieces_of_found (h.ne_nil hfront) (h.eq_some_iff.mpr ⟨front, hfront, rfl⟩), ih hrest]
    rfl

theorem replace_eq {text : List Char} {d : Division α} (hd : d.Divides spells text)
    (image : α → List Char) : replace find image text = d.replaced image := by
  rw [replace, ← hd.text_eq, h.pieces_text hd.leftmost]
  clear hd
  induction d with
  | last gap => simp [Division.pieces, Division.replaced, List.flatMap_map]
  | found gap front a rest ih =>
    simp [Division.pieces, Division.replaced, List.flatMap_map, ih]

end Finds

end

end FlatConfig.Text
