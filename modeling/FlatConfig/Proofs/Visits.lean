import FlatConfig.Proofs.FileTree
import FlatConfig.Proofs.Path
import Mathlib.Data.List.Nodup

/-!
What a walk through a directory tree comes to.

A walk is described from outside, by the regular files of the tree and by what can be read of it
(`FileTree.IsWalk`). The walk through a tree in which long paths are closed is such a walk
(`FileTree.isWalk_within`).
-/

set_option autoImplicit false

namespace FlatConfig.FileTree

open FlatConfig.Path (IsName)

mutual
/-- The entries of every directory have names, and no two of them the same. -/
def Proper : FileTree → Prop
  | .directory entries => (entries.map Prod.fst).Nodup ∧ ProperEntries entries
  | _ => True

def ProperEntries : List (String × FileTree) → Prop
  | [] => True
  | (name, tree) :: rest => IsName name ∧ tree.Proper ∧ ProperEntries rest
end

def IsRegular (tree : FileTree) (place : Place) : Prop :=
  ∃ content, tree.at? place = some (.file content)

theorem isRegular_nil {tree : FileTree} : tree.IsRegular [] ↔ ∃ content, tree = .file content := by
  simp [IsRegular, at?]

theorem isRegular_cons {entries : List (String × FileTree)} {name : String} {rest : Place} :
    (directory entries).IsRegular (name :: rest) ↔
      ∃ tree, entries.lookup name = some tree ∧ tree.IsRegular rest := by
  cases h : entries.lookup name <;> simp [IsRegular, at?, child?, h]

theorem not_isRegular_cons {tree : FileTree} (h : ∀ entries, tree ≠ .directory entries)
    (name : String) (rest : Place) : ¬ tree.IsRegular (name :: rest) := by
  cases tree with
  | directory entries => exact absurd rfl (h entries)
  | _ => simp [IsRegular, at?, child?]

theorem mem_of_lookup {entries : List (String × FileTree)} {name : String} {tree : FileTree}
    (h : entries.lookup name = some tree) : (name, tree) ∈ entries := by
  obtain ⟨before, after, rfl, -⟩ := List.lookup_eq_some_iff.mp h
  simp

theorem proper_of_mem {entries : List (String × FileTree)} (h : ProperEntries entries)
    {name : String} {tree : FileTree} (hm : (name, tree) ∈ entries) :
    IsName name ∧ tree.Proper := by
  induction entries with
  | nil => cases hm
  | cons entry rest ih =>
    obtain ⟨hname, htree, hrest⟩ := h
    rcases List.mem_cons.mp hm with rfl | hm
    · exact ⟨hname, htree⟩
    · exact ih hrest hm

theorem proper_of_at? {tree entry : FileTree} (h : tree.Proper) {place : Place}
    (hentry : tree.at? place = some entry) : entry.Proper := by
  induction place generalizing tree with
  | nil =>
    obtain rfl := Option.some.inj hentry
    exact h
  | cons name rest ih =>
    obtain ⟨child, hchild, hrest⟩ := Option.bind_eq_some_iff.mp hentry
    cases tree with
    | directory entries => exact ih (proper_of_mem h.2 (mem_of_lookup hchild)).2 hrest
    | _ => cases hchild

theorem IsRegular.isName {tree : FileTree} {place : Place} (hproper : tree.Proper)
    (h : tree.IsRegular place) : ∀ name ∈ place, IsName name := by
  induction place generalizing tree with
  | nil => simp
  | cons name rest ih =>
    cases tree with
    | directory entries =>
      obtain ⟨child, hchild, hrest⟩ := isRegular_cons.mp h
      obtain ⟨hname, hproper⟩ := proper_of_mem hproper.2 (mem_of_lookup hchild)
      exact List.forall_mem_cons.mpr ⟨hname, ih hproper hrest⟩
    | _ => exact absurd h (not_isRegular_cons (by simp) name rest)

theorem IsRegular.eq_of_prefix {tree : FileTree} {above place : Place} (h : above <+: place)
    (habove : tree.IsRegular above) (hplace : tree.IsRegular place) : above = place := by
  obtain ⟨rest, rfl⟩ := h
  obtain ⟨content, hcontent⟩ := habove
  obtain ⟨other, hother⟩ := hplace
  rw [at?_append, hcontent, Option.bind_some] at hother
  cases rest with
  | nil => simp
  | cons name rest => simp [at?, child?] at hother

/-- What is said of the way to a regular file need not hold of the file itself. -/
theorem IsRegular.forall_above_iff {tree : FileTree} {place : Place} (h : tree.IsRegular place)
    {p : Place → Prop} :
    (∀ above, above <+: place → tree.IsRegular above ∨ p above) ↔
      ∀ above, above <+: place → above ≠ place → p above := by
  refine forall₂_congr fun above habove => ?_
  constructor
  · rintro (hregular | hp) hne
    · exact absurd (hregular.eq_of_prefix habove h) hne
    · exact hp
  · intro hp
    by_cases hne : above = place
    · exact .inl (hne ▸ h)
    · exact .inr (hp hne)

section
variable {Name : Type}

def places (visits : List (Option (Visit Name))) : List (List Name) :=
  (visits.filterMap id).map Visit.place

/-- A walk that comes to no entry twice, and to exactly those regular files on the way to which
everything can be read. -/
structure IsWalk (regular readable : List Name → Prop) (visits : List (Option (Visit Name))) :
    Prop where
  nodup : (places visits).Nodup
  regular_iff : ∀ place, some ⟨place, true⟩ ∈ visits ↔
    regular place ∧ ∀ above, above <+: place → readable above

end

theorem places_entryVisits (name : String) (tree : FileTree) (rest : List (String × FileTree)) :
    places (entryVisits ((name, tree) :: rest)) =
      (places tree.visits).map (name :: ·) ++ places (entryVisits rest) := by
  have hbelow (visits : List (Option (Visit String))) :
      places (visits.map (·.map (Visit.below name))) = (places visits).map (name :: ·) := by
    induction visits with
    | nil => rfl
    | cons visit visits ih => cases visit <;> simp_all [places, Visit.below]
  rw [entryVisits, places, List.filterMap_append, List.map_append, ← places, ← places, hbelow]

theorem exists_of_mem_places {entries : List (String × FileTree)} {place : Place}
    (h : place ∈ places (entryVisits entries)) :
    ∃ name rest, place = name :: rest ∧ name ∈ entries.map Prod.fst := by
  induction entries with
  | nil => cases h
  | cons entry more ih =>
    obtain ⟨name, tree⟩ := entry
    rw [places_entryVisits, List.mem_append] at h
    rcases h with h | h
    · obtain ⟨rest, -, rfl⟩ := List.mem_map.mp h
      exact ⟨name, rest, rfl, List.mem_cons_self⟩
    · obtain ⟨other, rest, rfl, hother⟩ := ih h
      exact ⟨other, rest, rfl, List.mem_cons_of_mem _ hother⟩

mutual
theorem nodup_places (tree : FileTree) (h : tree.Proper) : (places tree.visits).Nodup := by
  cases tree with
  | directory entries =>
    have hentries := nodup_places_entryVisits entries h.1 h.2
    have hnil : [] ∉ places (entryVisits entries) := by
      intro hmem
      obtain ⟨_, _, hcons, -⟩ := exists_of_mem_places hmem
      cases hcons
    exact List.nodup_cons.mpr ⟨hnil, hentries⟩
  | _ => simp [visits, places]

theorem nodup_places_entryVisits (entries : List (String × FileTree))
    (hnames : (entries.map Prod.fst).Nodup) (h : ProperEntries entries) :
    (places (entryVisits entries)).Nodup := by
  match entries with
  | [] => exact List.nodup_nil
  | (name, tree) :: rest =>
    obtain ⟨-, htree, hrest⟩ := h
    obtain ⟨hname, hnames⟩ := List.nodup_cons.mp hnames
    rw [places_entryVisits]
    refine List.Nodup.append ?_ (nodup_places_entryVisits rest hnames hrest) ?_
    · exact (nodup_places tree htree).map (List.cons_injective)
    · intro place hplace hother
      obtain ⟨below, -, rfl⟩ := List.mem_map.mp hplace
      obtain ⟨other, _, hcons, hmem⟩ := exists_of_mem_places hother
      obtain ⟨rfl, -⟩ := List.cons.inj hcons
      exact hname hmem
end

theorem mem_visits_below {name : String} {visits : List (Option (Visit String))} {place : Place} :
    some ⟨place, true⟩ ∈ visits.map (·.map (Visit.below name)) ↔
      ∃ rest, place = name :: rest ∧ some ⟨rest, true⟩ ∈ visits := by
  rw [List.mem_map]
  constructor
  · rintro ⟨visit, hvisit, hvisit'⟩
    obtain ⟨⟨rest, isFile⟩, rfl, hbelow⟩ := Option.map_eq_some_iff.mp hvisit'
    obtain ⟨rfl, rfl⟩ := Visit.mk.inj hbelow
    exact ⟨rest, rfl, hvisit⟩
  · rintro ⟨rest, rfl, hvisit⟩
    exact ⟨some ⟨rest, true⟩, hvisit, rfl⟩

mutual
theorem mem_visits_iff (tree : FileTree) (h : tree.Proper) (place : Place) :
    some ⟨place, true⟩ ∈ tree.visits ↔ tree.IsRegular place := by
  cases tree with
  | directory entries =>
    simpa [visits] using mem_entryVisits_iff entries h.1 h.2 place
  | _ => cases place <;> simp [visits, isRegular_nil, not_isRegular_cons]

theorem mem_entryVisits_iff (entries : List (String × FileTree))
    (hnames : (entries.map Prod.fst).Nodup) (h : ProperEntries entries) (place : Place) :
    some ⟨place, true⟩ ∈ entryVisits entries ↔ (directory entries).IsRegular place := by
  match entries with
  | [] => cases place <;> simp [entryVisits, isRegular_nil, isRegular_cons]
  | (name, tree) :: more =>
    obtain ⟨-, htree, hmore⟩ := h
    obtain ⟨hname, hnames⟩ := List.nodup_cons.mp hnames
    have ih := mem_entryVisits_iff more hnames hmore place
    rw [entryVisits, List.mem_append, mem_visits_below, ih]
    cases place with
    | nil => simp [isRegular_nil]
    | cons other rest =>
      simp only [isRegular_cons, lookup_cons_eq, List.cons.injEq]
      by_cases hother : other = name
      · subst hother
        have hnone : more.lookup other = none := by
          rw [List.lookup_eq_none_iff]
          intro entry hentry
          rw [bne_iff_ne]
          rintro rfl
          exact hname (List.mem_map.mpr ⟨entry, hentry, rfl⟩)
        simp [hnone, mem_visits_iff tree htree]
      · simp [hother]
end

def cost : Place → Nat
  | [] => 0
  | name :: rest => name.utf8ByteSize + 1 + cost rest

theorem cost_snoc (above : Place) (name : String) :
    cost (above ++ [name]) = cost above + (name.utf8ByteSize + 1) := by
  induction above with
  | nil => exact Nat.add_comm _ _
  | cons other rest ih => simp only [List.cons_append, cost, ih, Nat.add_assoc]

theorem lookup_entriesWithin (room : Nat) (entries : List (String × FileTree)) (name : String) :
    (entriesWithin room entries).lookup name =
      (entries.lookup name).map fun tree =>
        if name.utf8ByteSize + 1 ≤ room then tree.within (room - (name.utf8ByteSize + 1))
        else tree.close := by
  induction entries with
  | nil => rfl
  | cons entry rest ih =>
    obtain ⟨other, tree⟩ := entry
    rw [entriesWithin, lookup_cons_eq, lookup_cons_eq]
    by_cases h : name = other
    · subst h
      rw [if_pos rfl, if_pos rfl, Option.map_some]
    · rw [if_neg h, if_neg h, ih]

theorem isRegular_close {tree : FileTree} {place : Place} :
    tree.close.IsRegular place ↔ place = [] ∧ tree.IsRegular [] := by
  cases place with
  | nil => cases tree <;> simp [close, isRegular_nil]
  | cons name rest => cases tree <;> simp [close, not_isRegular_cons]

/-- In a tree in which long paths are closed a regular file is seen when the paths of the
directories above it are short enough. -/
theorem isRegular_within {tree : FileTree} {room : Nat} {place : Place} :
    (tree.within room).IsRegular place ↔
      tree.IsRegular place ∧ ∀ above, above <+: place → above ≠ place → cost above ≤ room := by
  induction place generalizing tree room with
  | nil => cases tree <;> simp [within, isRegular_nil]
  | cons name rest ih =>
    cases tree with
    | directory entries =>
      rw [within, isRegular_cons, isRegular_cons, lookup_entriesWithin]
      cases hl : entries.lookup name with
      | none => simp
      | some child =>
        have hfits : (∀ above, above <+: name :: rest → above ≠ name :: rest → cost above ≤ room) ↔
            ∀ below, below <+: rest → below ≠ rest → name.utf8ByteSize + 1 + cost below ≤ room := by
          constructor
          · intro h below hbelow hne
            exact h (name :: below) (List.cons_prefix_cons.mpr ⟨rfl, hbelow⟩) (by simpa using hne)
          · intro h above habove hne
            rcases List.prefix_cons_iff.mp habove with rfl | ⟨below, rfl, hbelow⟩
            · exact Nat.zero_le _
            · exact h below hbelow (by simpa using hne)
        simp only [Option.map_some, Option.some.injEq, exists_eq_left', hfits]
        by_cases hname : name.utf8ByteSize + 1 ≤ room
        · rw [if_pos hname, ih]
          refine and_congr_right fun _ => forall₃_congr fun below _ _ => ?_
          omega
        · rw [if_neg hname, isRegular_close]
          constructor
          · rintro ⟨rfl, hfile⟩
            exact ⟨hfile, fun below hbelow hne => absurd (List.prefix_nil.mp hbelow) hne⟩
          · rintro ⟨hfile, h⟩
            have hnil : rest = [] := by
              by_contra hne
              have := h [] List.nil_prefix (Ne.symm hne)
              omega
            subst hnil
            exact ⟨rfl, hfile⟩
    | _ => simp [within, not_isRegular_cons]

theorem map_fst_entriesWithin (room : Nat) (entries : List (String × FileTree)) :
    (entriesWithin room entries).map Prod.fst = entries.map Prod.fst := by
  induction entries with
  | nil => rfl
  | cons entry rest ih => simp [entriesWithin, ih]

mutual
theorem proper_within (tree : FileTree) (room : Nat) (h : tree.Proper) :
    (tree.within room).Proper := by
  cases tree with
  | directory entries =>
    refine ⟨?_, properEntries_entriesWithin entries room h.2⟩
    rw [map_fst_entriesWithin]
    exact h.1
  | _ => trivial

theorem properEntries_entriesWithin (entries : List (String × FileTree)) (room : Nat)
    (h : ProperEntries entries) : ProperEntries (entriesWithin room entries) := by
  match entries with
  | [] => trivial
  | (name, tree) :: rest =>
    obtain ⟨hname, htree, hrest⟩ := h
    refine ⟨hname, ?_, properEntries_entriesWithin rest room hrest⟩
    split
    · exact proper_within tree _ htree
    · cases tree with
      | file content => trivial
      | link target => trivial
      | _ => trivial
end

theorem isWalk_visits {tree : FileTree} (h : tree.Proper) :
    IsWalk tree.IsRegular (fun _ => True) tree.visits where
  nodup := nodup_places tree h
  regular_iff place := by
    rw [mem_visits_iff tree h]
    simp

theorem isWalk_within {tree : FileTree} (h : tree.Proper) (room : Nat) :
    IsWalk tree.IsRegular (fun place => tree.IsRegular place ∨ cost place ≤ room)
      (tree.within room).visits where
  nodup := nodup_places _ (proper_within tree room h)
  regular_iff place := by
    rw [mem_visits_iff _ (proper_within tree room h), isRegular_within]
    exact and_congr_right fun hplace => hplace.forall_above_iff.symm

end FlatConfig.FileTree
