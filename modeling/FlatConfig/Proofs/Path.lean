import FlatConfig.Path
import Mathlib.Data.List.Basic

set_option autoImplicit false

namespace FlatConfig.Path

theorem splitSlashes_eq_splitOn (text : List Char) : splitSlashes text = text.splitOn '/' := by
  induction text with
  | nil => rfl
  | cons c rest ih =>
    rw [splitSlashes, List.splitOn_cons_eq_if_modifyHead, ih]
    by_cases h : c = '/'
    · simp [h]
    · cases hs : rest.splitOn '/' with
      | nil => exact absurd hs (List.splitOn_ne_nil _ _)
      | cons part parts => simp [h]

theorem parts_eq (path : String) : parts path = (path.toList.splitOn '/').map String.ofList := by
  rw [parts, splitSlashes_eq_splitOn]

theorem parts_empty : parts "" = [""] := rfl

theorem parts_ne_nil (path : String) : parts path ≠ [] := by
  rw [parts_eq]
  simp [List.splitOn_ne_nil]

theorem slash_not_mem_of_mem_splitOn {text part : List Char} (h : part ∈ text.splitOn '/') :
    '/' ∉ part := by
  induction text generalizing part with
  | nil =>
    obtain rfl : part = [] := by simpa using h
    simp
  | cons c rest ih =>
    rw [List.splitOn_cons_eq_if_modifyHead] at h
    by_cases hc : c = '/'
    · simp only [hc, beq_self_eq_true, if_true, List.mem_cons] at h
      rcases h with rfl | h
      · simp
      · exact ih h
    · cases hs : rest.splitOn '/' with
      | nil => exact absurd hs (List.splitOn_ne_nil _ _)
      | cons first more =>
        simp only [hs, beq_iff_eq, hc, if_false, List.modifyHead_cons, List.mem_cons] at h
        rcases h with rfl | h
        · simp [Ne.symm hc, ih (show first ∈ rest.splitOn '/' by simp [hs])]
        · exact ih (by simp [hs, h])

theorem slash_not_mem_of_mem_parts {path part : String} (h : part ∈ parts path) :
    '/' ∉ part.toList := by
  rw [parts_eq, List.mem_map] at h
  obtain ⟨text, htext, rfl⟩ := h
  simpa using slash_not_mem_of_mem_splitOn htext

theorem parts_append_slash (front back : String) :
    parts (front ++ "/" ++ back) = parts front ++ parts back := by
  simp [parts_eq, List.splitOn_append_cons_self]

theorem intercalate_parts (path : String) : "/".intercalate (parts path) = path := by
  rw [← String.toList_inj, String.toList_intercalate, parts_eq, List.map_map]
  simp [Function.comp_def]

theorem parts_intercalate {names : List String} (hfree : ∀ name ∈ names, '/' ∉ name.toList)
    (hne : names ≠ []) : parts ("/".intercalate names) = names := by
  have hsplit : ("/".toList.intercalate (names.map String.toList)).splitOn '/' =
      names.map String.toList :=
    List.splitOn_intercalate '/' (by simpa using hfree) (by simpa using hne)
  rw [parts_eq, String.toList_intercalate, hsplit, List.map_map]
  simp [Function.comp_def]

theorem isAbsolute_iff {path : String} :
    isAbsolute path = true ↔ ∃ part rest, parts path = "" :: part :: rest := by
  rw [isAbsolute, parts_eq]
  cases path.toList with
  | nil => simp
  | cons c rest =>
    rw [List.splitOn_cons_eq_if_modifyHead]
    cases hs : rest.splitOn '/' with
    | nil => exact absurd hs (List.splitOn_ne_nil _ _)
    | cons first more => by_cases hc : c = '/' <;> simp [hc]

theorem parts_of_slash_not_mem {name : String} (h : '/' ∉ name.toList) : parts name = [name] := by
  have hparts : parts ("/".intercalate [name]) = [name] :=
    parts_intercalate (by simpa using h) (by simp)
  simpa [String.intercalate_singleton] using hparts

/-- A path that is cut between two parts is cut at a slash. -/
theorem eq_of_parts_eq_append {path : String} {front back : List String}
    (h : parts path = front ++ back) (hfront : front ≠ []) (hback : back ≠ []) :
    path = "/".intercalate front ++ "/" ++ "/".intercalate back := by
  have hfree : ∀ part ∈ front ++ back, '/' ∉ part.toList := fun part hpart =>
    slash_not_mem_of_mem_parts (h ▸ hpart)
  rw [← intercalate_parts path, h,
    ← intercalate_parts ("/".intercalate front ++ "/" ++ "/".intercalate back),
    parts_append_slash, parts_intercalate (fun part hp => hfree part (by simp [hp])) hfront,
    parts_intercalate (fun part hp => hfree part (by simp [hp])) hback]

theorem isAbsolute_append {front : String} (h : front ≠ "") (back : String) :
    isAbsolute (front ++ back) = isAbsolute front := by
  have hlist : front.toList ≠ [] := by simpa using h
  rw [isAbsolute, isAbsolute, String.toList_append, List.head?_append_of_ne_nil _ hlist]

theorem isAbsolute_of_slash_not_mem {name : String} (h : '/' ∉ name.toList) :
    isAbsolute name = false := by
  rw [← Bool.not_eq_true, isAbsolute_iff, parts_of_slash_not_mem h]
  simp

theorem join_eq {directory name : String} (hd : directory ≠ "") (hn : '/' ∉ name.toList) :
    join directory name =
      if directory.toList.getLast? == some '/' then directory ++ name
      else directory ++ "/" ++ name := by
  simp [join, isAbsolute_of_slash_not_mem hn, hd]

theorem join_spec {directory name : String} (hd : directory ≠ "") (hn : '/' ∉ name.toList) :
    ∃ back above, join directory name = directory ++ back ∧
      parts (join directory name) = above ++ [name] ∧
        (parts directory = above ∨ parts directory = above ++ [""]) := by
  have hname := parts_of_slash_not_mem hn
  rw [join_eq hd hn]
  split
  · rename_i hlast
    obtain ⟨front, hfront⟩ := List.getLast?_eq_some_iff.mp (by simpa using hlast)
    obtain rfl : directory = String.ofList front ++ "/" ++ "" := by
      rw [← String.toList_inj, hfront]
      simp
    refine ⟨name, parts (String.ofList front), rfl, ?_, .inr ?_⟩
    · rw [String.append_empty, parts_append_slash, hname]
    · rw [parts_append_slash, parts_empty]
  · refine ⟨"/" ++ name, parts directory, String.append_assoc, ?_, .inl rfl⟩
    rw [parts_append_slash, hname]

theorem suffix_trimmed (absolute : Bool) (reversed : List String) :
    trimmed absolute reversed <:+ reversed := by
  induction reversed with
  | nil => exact List.suffix_rfl
  | cons part before ih =>
    rw [trimmed]
    split
    · exact List.suffix_rfl
    · exact ih.trans (List.suffix_cons part before)

theorem parentsOf_trimmed (absolute : Bool) (reversed : List String) :
    parentsOf absolute (trimmed absolute reversed) = parentsOf absolute reversed := by
  induction reversed with
  | nil => rfl
  | cons part before ih =>
    by_cases h : isNamed absolute part before = true
    · simp [trimmed, h]
    · simp [trimmed, parentsOf, h, ih]

/-- Parts, the last first, that a path can have: the first part of a relative path is not empty. -/
structure ArePartsOf (absolute : Bool) (reversed : List String) : Prop where
  free : ∀ part ∈ reversed, '/' ∉ part.toList
  first : absolute = false → reversed.getLast? ≠ some ""

theorem ArePartsOf.suffix {absolute : Bool} {reversed before : List String}
    (h : ArePartsOf absolute reversed) (hb : before <:+ reversed) :
    ArePartsOf absolute before where
  free part hpart := h.free part (hb.subset hpart)
  first ha := by
    obtain ⟨front, rfl⟩ := hb
    intro hlast
    apply h.first ha
    cases before with
    | nil => simp at hlast
    | cons part more => simpa [List.getLast?_append] using hlast

theorem parts_ofReversed {absolute : Bool} {reversed : List String}
    (h : ArePartsOf absolute reversed) (hne : reversed ≠ []) :
    parts (ofReversed absolute reversed) =
      (if absolute then [""] else []) ++ reversed.reverse := by
  have hjoined : parts ("/".intercalate reversed.reverse) = reversed.reverse :=
    parts_intercalate (by simpa using h.free) (by simpa using hne)
  cases absolute with
  | false => simpa [ofReversed] using hjoined
  | true =>
    have hslash := parts_append_slash "" ("/".intercalate reversed.reverse)
    rw [hjoined] at hslash
    simpa [ofReversed, parts_empty] using hslash

theorem isAbsolute_ofReversed {absolute : Bool} {reversed : List String}
    (h : ArePartsOf absolute reversed) (hne : reversed ≠ []) :
    isAbsolute (ofReversed absolute reversed) = absolute := by
  rw [Bool.eq_iff_iff, isAbsolute_iff, parts_ofReversed h hne]
  cases absolute with
  | true =>
    cases hr : reversed.reverse with
    | nil => exact absurd (by simpa using hr) hne
    | cons part rest => simp
  | false =>
    constructor
    · rintro ⟨part, rest, hparts⟩
      refine absurd ?_ (h.first rfl)
      rw [← List.head?_reverse]
      simpa using congrArg List.head? hparts
    · simp

theorem parents_ofReversed {absolute : Bool} {reversed : List String}
    (h : ArePartsOf absolute reversed) :
    parents (ofReversed absolute reversed) = parentsOf absolute reversed := by
  by_cases hne : reversed = []
  · subst hne
    cases absolute <;> rfl
  · have hreversed : reversedParts (ofReversed absolute reversed) = reversed := by
      rw [reversedParts, isAbsolute_ofReversed h hne, parts_ofReversed h hne]
      cases absolute <;> simp
    rw [parents, isAbsolute_ofReversed h hne, hreversed]

theorem parentsOf_eq {absolute : Bool} {reversed : List String}
    (h : ArePartsOf absolute reversed) :
    parentsOf absolute reversed =
      match (parentsOf absolute reversed).head? with
      | none => []
      | some above => above :: parents above := by
  induction reversed with
  | nil => rfl
  | cons part before ih =>
    have hbefore := h.suffix (List.suffix_cons part before)
    rw [parentsOf]
    split
    · have htrimmed := hbefore.suffix (suffix_trimmed absolute before)
      simp [parents_ofReversed htrimmed, parentsOf_trimmed]
    · exact ih hbefore

theorem arePartsOf_reversedParts {path : String} (h : path ≠ "") :
    ArePartsOf (isAbsolute path) (reversedParts path) where
  free part hpart := by
    rw [reversedParts, List.mem_reverse] at hpart
    exact slash_not_mem_of_mem_parts (List.mem_of_mem_drop hpart)
  first ha := by
    rw [reversedParts, ha, List.getLast?_reverse]
    intro hhead
    cases hparts : parts path with
    | nil => exact parts_ne_nil path hparts
    | cons part rest =>
      obtain rfl : part = "" := by simpa [hparts] using hhead
      cases rest with
      | nil => exact h (by rw [← intercalate_parts path, hparts]; rfl)
      | cons second more =>
        have habsolute := isAbsolute_iff.mpr ⟨second, more, hparts⟩
        rw [ha] at habsolute
        cases habsolute

theorem parents_eq (path : String) :
    parents path =
      match parent? path with
      | none => []
      | some above => above :: parents above := by
  by_cases h : path = ""
  · subst h
    rfl
  · exact parentsOf_eq (arePartsOf_reversedParts h)

/-- What holds of a path whenever it holds of its parent holds of every path. -/
theorem induction_parent {motive : String → Prop}
    (h : ∀ path, (∀ above, parent? path = some above → motive above) → motive path)
    (path : String) : motive path := by
  induction hn : (parents path).length generalizing path with
  | zero =>
    refine h path fun above habove => ?_
    rw [parents_eq, habove] at hn
    cases hn
  | succ n ih =>
    refine h path fun above habove => ih above ?_
    rw [parents_eq, habove] at hn
    exact Nat.succ.inj hn

structure IsName (name : String) : Prop where
  nonempty : name ≠ ""
  ne_here : name ≠ "."
  ne_above : name ≠ ".."
  slash_not_mem : '/' ∉ name.toList

theorem isName_iff {name : String} :
    IsName name ↔ name ≠ "" ∧ name ≠ "." ∧ name ≠ ".." ∧ '/' ∉ name.toList :=
  ⟨fun ⟨h, hhere, habove, hslash⟩ => ⟨h, hhere, habove, hslash⟩,
    fun ⟨h, hhere, habove, hslash⟩ => ⟨h, hhere, habove, hslash⟩⟩

instance (name : String) : Decidable (IsName name) := decidable_of_iff _ isName_iff.symm

def namedOf (absolute : Bool) : List String → List String
  | [] => []
  | part :: before =>
    if isNamed absolute part before then namedOf absolute before ++ [part]
    else namedOf absolute before

def components (path : String) : List String := namedOf (isAbsolute path) (reversedParts path)

theorem IsName.isNamed {name : String} (h : IsName name) (absolute : Bool)
    (before : List String) : isNamed absolute name before = true := by
  simp [Path.isNamed, h.nonempty, h.ne_here]

theorem join_empty (name : String) : join "" name = name := by simp [join]

theorem isAbsolute_join {directory name : String} (hd : directory ≠ "") (hn : '/' ∉ name.toList) :
    isAbsolute (join directory name) = isAbsolute directory := by
  obtain ⟨back, _, hjoin, -⟩ := join_spec hd hn
  rw [hjoin, isAbsolute_append hd]

theorem reversedParts_join {directory name : String} (hd : directory ≠ "")
    (hn : '/' ∉ name.toList) :
    ∃ before, reversedParts (join directory name) = name :: before ∧
      (reversedParts directory = before ∨ reversedParts directory = "" :: before) := by
  obtain ⟨_, above, -, hparts, hdirectory⟩ := join_spec hd hn
  have hroot : (if isAbsolute directory then 1 else 0) ≤ above.length := by
    by_cases habsolute : isAbsolute directory = true
    · obtain ⟨part, rest, hpart⟩ := isAbsolute_iff.mp habsolute
      have hlength : 2 ≤ (parts directory).length := by simp [hpart]
      rcases hdirectory with hdirectory | hdirectory
      · rw [hdirectory] at hlength
        simp only [habsolute, if_true]
        omega
      · simp only [hdirectory, List.length_append, List.length_singleton] at hlength
        simp only [habsolute, if_true]
        omega
    · simp [habsolute]
  refine ⟨(above.drop (if isAbsolute directory then 1 else 0)).reverse, ?_, ?_⟩
  · rw [reversedParts, isAbsolute_join hd hn, hparts, List.drop_append_of_le_length hroot,
      List.reverse_append, List.reverse_singleton, List.singleton_append]
  · rcases hdirectory with hdirectory | hdirectory
    · exact .inl (by rw [reversedParts, hdirectory])
    · refine .inr ?_
      rw [reversedParts, hdirectory, List.drop_append_of_le_length hroot, List.reverse_append,
        List.reverse_singleton, List.singleton_append]

theorem components_join {directory name : String} (hd : directory ≠ "") (h : IsName name) :
    components (join directory name) = components directory ++ [name] := by
  obtain ⟨before, hjoin, hdirectory⟩ := reversedParts_join hd h.slash_not_mem
  rw [components, components, isAbsolute_join hd h.slash_not_mem, hjoin, namedOf,
    if_pos (h.isNamed _ _)]
  rcases hdirectory with hdirectory | hdirectory <;> simp [hdirectory, namedOf, Path.isNamed]

theorem fileName?_join (directory : String) {name : String} (h : IsName name) :
    fileName? (join directory name) = some name := by
  have hreversed : ∃ before, reversedParts (join directory name) = name :: before := by
    by_cases hd : directory = ""
    · refine ⟨[], ?_⟩
      rw [hd, join_empty, reversedParts, isAbsolute_of_slash_not_mem h.slash_not_mem,
        parts_of_slash_not_mem h.slash_not_mem]
      rfl
    · obtain ⟨before, hbefore, -⟩ := reversedParts_join hd h.slash_not_mem
      exact ⟨before, hbefore⟩
  obtain ⟨before, hbefore⟩ := hreversed
  rw [fileName?, hbefore, trimmed, if_pos (h.isNamed _ _)]
  simp [h.ne_here, h.ne_above]

end FlatConfig.Path
