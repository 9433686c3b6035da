import FlatConfig.Proofs.Division
import FlatConfig.Proofs.Marks

set_option autoImplicit false

namespace FlatConfig.Template

/-- Double braces around exactly the key, which may have ASCII blanks on both sides. -/
def IsPlaceholder (key : List Char) : Text.Spelling Unit := fun front _ =>
  ∃ before after : Blanks, front = opening ++ (before.chars ++ (key ++ (after.chars ++ closing)))

section
variable {key text rest : List Char}

theorem takeWhile_append_of_not_all {p : Char → Bool} (h : ¬ ∀ c ∈ key, p c = true)
    (rest : List Char) : (key ++ rest).takeWhile p = key.takeWhile p := by
  induction key with
  | nil => exact absurd (by simp) h
  | cons c key ih =>
    by_cases hc : p c = true
    · have hkey : ¬ ∀ d ∈ key, p d = true := fun hall => h (by simpa [hc] using hall)
      simp [hc, ih hkey]
    · simp [hc]

/-- Two readings of a padded key in one text end at the same place. A key that has a character other
than blanks is at one place in both, and with a key of blanks all is blank up to the braces. -/
theorem rest_eq_of_padded {before after before' after' : Blanks} {rest' : List Char}
    (h : before.chars ++ (key ++ (after.chars ++ (closing ++ rest))) =
      before'.chars ++ (key ++ (after'.chars ++ (closing ++ rest')))) : rest = rest' := by
  by_cases hkey : ∀ c ∈ key, Text.isAsciiBlank c = true
  · have hdrop := congrArg (List.dropWhile Text.isAsciiBlank) h
    simp only [List.dropWhile_append_of_pos before.blank,
      List.dropWhile_append_of_pos before'.blank, List.dropWhile_append_of_pos hkey,
      dropWhile_blanks_closing] at hdrop
    exact List.append_cancel_left hdrop
  · have htake := congrArg (List.takeWhile Text.isAsciiBlank) h
    simp only [List.takeWhile_append_of_pos before.blank,
      List.takeWhile_append_of_pos before'.blank, takeWhile_append_of_not_all hkey] at htake
    rw [List.append_cancel_right htake] at h
    have hdrop := congrArg (List.dropWhile Text.isAsciiBlank)
      (List.append_cancel_left (List.append_cancel_left h))
    rw [dropWhile_blanks_closing, dropWhile_blanks_closing] at hdrop
    exact List.append_cancel_left hdrop

theorem afterKey?_of_closeAfter? (h : afterKey?.closeAfter? key text = some rest) :
    afterKey? key text = some rest := by
  cases text with
  | nil => exact h
  | cons c text => rw [afterKey?, h]

theorem padded_of_afterKey? (h : afterKey? key text = some rest) : ∃ before after : Blanks,
    text = before.chars ++ (key ++ (after.chars ++ (closing ++ rest))) := by
  induction text with
  | nil => exact ⟨.none, closeAfter?_eq_some_iff.mp h⟩
  | cons c text ih =>
    rw [afterKey?] at h
    split at h
    · rename_i found hclose
      obtain rfl := Option.some.inj h
      exact ⟨.none, closeAfter?_eq_some_iff.mp hclose⟩
    · split at h
      · rename_i hc
        obtain ⟨before, after, htext⟩ := ih h
        refine ⟨⟨c :: before.chars, List.forall_mem_cons.mpr ⟨hc, before.blank⟩⟩, after, ?_⟩
        rw [htext]
        rfl
      · cases h

theorem afterKey?_isSome (key : List Char) (before after : Blanks) (rest : List Char) : ∃ found,
    afterKey? key (before.chars ++ (key ++ (after.chars ++ (closing ++ rest)))) = some found := by
  obtain ⟨blanks, hblanks⟩ := before
  induction blanks with
  | nil => exact ⟨rest, afterKey?_of_closeAfter? (closeAfter?_eq_some_iff.mpr ⟨after, rfl⟩)⟩
  | cons c blanks ih =>
    obtain ⟨hc, hblanks⟩ := List.forall_mem_cons.mp hblanks
    simp only [List.cons_append]
    rw [afterKey?]
    split
    · exact ⟨_, rfl⟩
    · rw [if_pos hc]
      exact ih hblanks

theorem afterKey?_eq_some_iff : afterKey? key text = some rest ↔ ∃ before after : Blanks,
    text = before.chars ++ (key ++ (after.chars ++ (closing ++ rest))) := by
  refine ⟨padded_of_afterKey?, ?_⟩
  rintro ⟨before, after, rfl⟩
  obtain ⟨found, hfound⟩ := afterKey?_isSome key before after rest
  obtain ⟨before', after', heq⟩ := padded_of_afterKey? hfound
  rw [hfound, rest_eq_of_padded heq]

end

theorem finds_placeholder? (key : List Char) :
    Text.Finds (placeholder? key) (IsPlaceholder key) where
  eq_some_iff {text a rest} := by
    rw [placeholder?, Option.bind_eq_bind, Option.bind_eq_some_iff]
    constructor
    · rintro ⟨inner, hopening, hkey⟩
      obtain ⟨found, hfound, hrest⟩ := Option.bind_eq_some_iff.mp hkey
      obtain rfl : found = rest := congrArg Prod.snd (Option.some.inj hrest)
      obtain ⟨before, after, rfl⟩ := afterKey?_eq_some_iff.mp hfound
      refine ⟨_, ⟨before, after, rfl⟩, ?_⟩
      rw [Text.strip?_eq_some.mp hopening]
      simp only [List.append_assoc]
    · rintro ⟨front, ⟨before, after, rfl⟩, rfl⟩
      simp only [List.append_assoc]
      refine ⟨_, Text.strip?_append _ _, ?_⟩
      exact Option.bind_eq_some_iff.mpr ⟨rest, afterKey?_eq_some_iff.mpr ⟨before, after, rfl⟩, rfl⟩
  ne_nil := by
    rintro _ _ ⟨before, after, rfl⟩
    exact List.append_ne_nil_of_left_ne_nil (by simp [opening]) _

/-- Blanks of other kinds are not passed over around a key, nor is anything else. -/
theorem isPlaceholder_iff (key before after : List Char) :
    IsPlaceholder key (opening ++ (before ++ (key ++ (after ++ closing)))) () ↔
      ∀ c ∈ before ++ after, Text.isAsciiBlank c = true := by
  rw [List.forall_mem_append]
  constructor
  · rintro ⟨blanks, blanks', h⟩
    have hnone (b : Blanks) : b.chars.countP (!Text.isAsciiBlank ·) = 0 := by
      simpa using b.blank
    -- both readings have as many characters that are no ASCII blanks
    have hcount := congrArg (List.countP (!Text.isAsciiBlank ·)) h
    simp only [List.countP_append, hnone] at hcount
    have hbefore : before.countP (!Text.isAsciiBlank ·) = 0 := by omega
    have hafter : after.countP (!Text.isAsciiBlank ·) = 0 := by omega
    exact ⟨by simpa using hbefore, by simpa using hafter⟩
  · rintro ⟨hbefore, hafter⟩
    exact ⟨⟨before, hbefore⟩, ⟨after, hafter⟩, rfl⟩

/-- A substitution puts the value, as it is, in the place of every placeholder of the one division
of the text in which no placeholder starts inside a gap. -/
theorem substitute_leftmost (key value text : List Char) :
    (∃ d : Text.Division Unit, d.Divides (IsPlaceholder key) text ∧
      (∀ e : Text.Division Unit, e.Divides (IsPlaceholder key) text → e = d) ∧
      substitute key value text = d.replaced fun _ => value) ∧
    ∀ before after : List Char,
      IsPlaceholder key (opening ++ (before ++ (key ++ (after ++ closing)))) () ↔
        ∀ c ∈ before ++ after, Text.isAsciiBlank c = true := by
  obtain ⟨d, hd, hunique⟩ := (finds_placeholder? key).exists_unique_division text
  exact ⟨⟨d, hd, hunique, (finds_placeholder? key).replace_eq hd _⟩, isPlaceholder_iff key⟩

/-- The first two braces begin no placeholder, and what is put in is not looked at again. -/
example : substitute ['a'] (opening ++ ['a'] ++ closing)
      (opening ++ opening ++ ['a'] ++ closing ++ closing) =
    opening ++ opening ++ ['a'] ++ closing ++ closing := by decide

end FlatConfig.Template
