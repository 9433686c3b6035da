import FlatConfig.Package
import FlatConfig.Proofs.Discovery
import FlatConfig.Proofs.Disk
import FlatConfig.Proofs.Visits
import Mathlib.Data.List.Induction
import Mathlib.Data.List.Infix
import Mathlib.Data.List.Lex
import Mathlib.Data.List.Sort
import Mathlib.Data.String.Basic

/-!
Which sources a directory of shared configuration is said to hold.

What is taken from a walk depends on the files that the walk comes to and not on their order
(`Package.lists_select`), and where less can be read, less is taken (`Package.Lists.sublist`). On a
disk the sources are the regular files with such a name below the directory, each one once and in
the order of the path components (`Package.find_sources`).
-/

set_option autoImplicit false

namespace FlatConfig.Package

open FileTree
open FlatConfig.Path (IsName)

def IsSource (name : String) : Prop :=
  ∃ extension ∈ ["yaml", "yml", "json"],
    name = "usagi.config." ++ extension ∨ ∃ front, name = front ++ ".usagi." ++ extension

theorem isSuffixOf_toList_iff {back name : String} :
    back.toList.isSuffixOf name.toList = true ↔ ∃ front, name = front ++ back := by
  rw [List.isSuffixOf_iff_suffix]
  constructor
  · rintro ⟨front, hfront⟩
    refine ⟨String.ofList front, ?_⟩
    rw [← String.toList_inj, String.toList_append, String.toList_ofList, hfront]
  · rintro ⟨front, rfl⟩
    exact ⟨front.toList, (String.toList_append).symm⟩

theorem isSourceName_iff {name : String} : isSourceName name = true ↔ IsSource name := by
  simp only [isSourceName, extensions, IsSource, List.any_eq_true, Bool.or_eq_true, beq_iff_eq,
    isSuffixOf_toList_iff, String.append_assoc]

instance (name : String) : Decidable (IsSource name) := decidable_of_iff _ isSourceName_iff

theorem isSource_of_mem_fileNames : ∀ name ∈ Source.fileNames, IsSource name := by
  decide

theorem isName_of_mem_fileNames : ∀ name ∈ Source.fileNames, IsName name := by
  decide

section
variable {Name : Type} [LinearOrder Name]

theorem isBefore_iff {a b : List Name} : isBefore a b = true ↔ ¬ b < a := by
  induction a generalizing b with
  | nil => simp [isBefore]
  | cons x a ih =>
    cases b with
    | nil => simp [isBefore]
    | cons y b =>
      rw [isBefore, List.cons_lt_cons_iff]
      by_cases h : x = y
      · simp [h, ih]
      · simp [h, Ne.symm h]

/-- The places of those regular files on the way to which everything can be read and whose name is
a text and the name of a source, each one once and in order. -/
structure Lists (text? : Name → Option String) (top : Name) (regular readable : List Name → Prop)
    (found : List (List Name)) : Prop where
  mem_iff : ∀ place, place ∈ found ↔
    (regular place ∧ ∀ above, above <+: place → readable above) ∧
      ∃ name, text? (place.getLast?.getD top) = some name ∧ IsSource name
  nodup : found.Nodup
  sorted : found.Pairwise (· < ·)

theorem mem_select {text? : Name → Option String} {top : Name}
    {visits : List (Option (Visit Name))} {place : List Name} :
    place ∈ select text? top visits ↔
      some ⟨place, true⟩ ∈ visits ∧
        ∃ name, text? (place.getLast?.getD top) = some name ∧ IsSource name := by
  have hname : isSourceName ((text? (place.getLast?.getD top)).getD "") = true ↔
      ∃ name, text? (place.getLast?.getD top) = some name ∧ IsSource name := by
    cases text? (place.getLast?.getD top) with
    | none => simp only [Option.getD_none, reduceCtorEq, false_and, exists_false, iff_false]; decide
    | some name => simp [isSourceName_iff]
  rw [select, List.mem_mergeSort, List.mem_map, ← hname]
  constructor
  · rintro ⟨⟨place, isFile⟩, hvisit, rfl⟩
    simp only [List.mem_filter, List.mem_filterMap, id] at hvisit
    obtain ⟨⟨⟨_, hvisit, rfl⟩, rfl⟩, hsource⟩ := hvisit
    exact ⟨hvisit, hsource⟩
  · rintro ⟨hvisit, hsource⟩
    refine ⟨⟨place, true⟩, ?_, rfl⟩
    simp only [List.mem_filter, List.mem_filterMap, id]
    exact ⟨⟨⟨_, hvisit, rfl⟩, trivial⟩, hsource⟩

theorem nodup_select {visits : List (Option (Visit Name))} (h : (places visits).Nodup)
    (text? : Name → Option String) (top : Name) : (select text? top visits).Nodup := by
  rw [select, (List.mergeSort_perm _ _).nodup_iff]
  exact h.sublist ((List.filter_sublist.trans List.filter_sublist).map Visit.place)

theorem sorted_select {visits : List (Option (Visit Name))} (h : (places visits).Nodup)
    (text? : Name → Option String) (top : Name) :
    (select text? top visits).Pairwise (· < ·) := by
  have hnodup := nodup_select h text? top
  have hbefore : (select text? top visits).Pairwise (fun a b => isBefore a b = true) := by
    apply List.pairwise_mergeSort
    · intro a b c hab hbc
      rw [isBefore_iff, not_lt] at *
      exact hab.trans hbc
    · intro a b
      rw [Bool.or_eq_true, isBefore_iff, isBefore_iff, not_lt, not_lt]
      exact le_total a b
  refine (hnodup.and hbefore).imp fun h => ?_
  obtain ⟨hne, hle⟩ := h
  rw [isBefore_iff, not_lt] at hle
  exact lt_of_le_of_ne hle hne

theorem lists_select {regular readable : List Name → Prop} {visits : List (Option (Visit Name))}
    (h : IsWalk regular readable visits) (text? : Name → Option String) (top : Name) :
    Lists text? top regular readable (select text? top visits) where
  mem_iff place := by rw [mem_select, h.regular_iff]
  nodup := nodup_select h.nodup text? top
  sorted := sorted_select h.nodup text? top

/-- When less can be read, what is below it is missing and nothing else changes. -/
theorem Lists.mem_iff_of_readable {text? : Name → Option String} {top : Name}
    {regular readable : List Name → Prop} {all found : List (List Name)}
    (hall : Lists text? top regular (fun _ => True) all)
    (h : Lists text? top regular readable found) (place : List Name) :
    place ∈ found ↔ place ∈ all ∧ ∀ above, above <+: place → readable above := by
  rw [hall.mem_iff, h.mem_iff]
  simp only [implies_true, and_true]
  tauto

theorem Lists.sublist {text? : Name → Option String} {top : Name}
    {regular readable : List Name → Prop} {all found : List (List Name)}
    (hall : Lists text? top regular (fun _ => True) all)
    (h : Lists text? top regular readable found) : found.Sublist all := by
  have hsubset : found ⊆ all := fun place hplace => ((hall.mem_iff_of_readable h place).mp hplace).1
  exact List.sublist_of_subperm_of_pairwise (List.subperm_of_subset h.nodup hsubset) h.sorted
    hall.sorted

end

theorem pathAt_snoc (root : String) (above : Place) (name : String) :
    pathAt root (above ++ [name]) = Path.join (pathAt root above) name := by
  simp [pathAt]

theorem join_ne_empty {directory name : String} (hd : directory ≠ "") (h : IsName name) :
    Path.join directory name ≠ "" := by
  rw [Path.join_eq hd h.slash_not_mem]
  split <;> simp [hd]

theorem pathAt_ne_empty {root : String} (hroot : root ≠ "") {place : Place}
    (h : ∀ name ∈ place, IsName name) : pathAt root place ≠ "" := by
  induction place using List.reverseRecOn with
  | nil => exact hroot
  | append_singleton above name ih =>
    rw [pathAt_snoc]
    exact join_ne_empty (ih fun n hn => h n (by simp [hn])) (h name (by simp))

theorem components_pathAt {root : String} (hroot : root ≠ "") {place : Place}
    (h : ∀ name ∈ place, IsName name) :
    Path.components (pathAt root place) = Path.components root ++ place := by
  induction place using List.reverseRecOn with
  | nil => exact (List.append_nil _).symm
  | append_singleton above name ih =>
    have habove : ∀ n ∈ above, IsName n := fun n hn => h n (by simp [hn])
    rw [pathAt_snoc, Path.components_join (pathAt_ne_empty hroot habove) (h name (by simp)),
      ih habove, List.append_assoc]

theorem nameOf_pathAt (root : String) {place : Place} (h : ∀ name ∈ place, IsName name) :
    nameOf (pathAt root place) = place.getLast?.getD (nameOf root) := by
  cases place using List.reverseRecOn with
  | nil => rfl
  | append_singleton above name =>
    rw [pathAt_snoc, nameOf, Path.fileName?_join _ (h name (by simp)), List.getLast?_concat]
    rfl

def bareSize (path : String) : Nat :=
  path.utf8ByteSize - (if path.toList.getLast? == some '/' then 1 else 0)

theorem utf8ByteSize_join {directory name : String} (hd : directory ≠ "") (h : IsName name) :
    (Path.join directory name).utf8ByteSize = bareSize directory + (name.utf8ByteSize + 1) := by
  have hpositive : directory.utf8ByteSize ≠ 0 := by simpa using hd
  have hslash : "/".utf8ByteSize = 1 := by decide
  rw [Path.join_eq hd h.slash_not_mem, bareSize]
  split <;> simp only [String.utf8ByteSize_append] <;> omega

theorem bareSize_join {directory name : String} (hd : directory ≠ "") (h : IsName name) :
    bareSize (Path.join directory name) = (Path.join directory name).utf8ByteSize := by
  have hname : name.toList ≠ [] := by simpa using h.nonempty
  have hlast : (Path.join directory name).toList.getLast? = name.toList.getLast? := by
    rw [Path.join_eq hd h.slash_not_mem]
    split <;> rw [String.toList_append, List.getLast?_append_of_ne_nil _ hname]
  have hslash : name.toList.getLast? ≠ some '/' := fun hslash =>
    h.slash_not_mem (List.mem_of_getLast? hslash)
  simp [bareSize, hlast, hslash]

theorem bareSize_pathAt {root : String} (hroot : root ≠ "") {place : Place}
    (h : ∀ name ∈ place, IsName name) :
    bareSize (pathAt root place) = bareSize root + cost place := by
  induction place using List.reverseRecOn with
  | nil => rfl
  | append_singleton above name ih =>
    have habove : ∀ n ∈ above, IsName n := fun n hn => h n (by simp [hn])
    have hdirectory := pathAt_ne_empty hroot habove
    have hname := h name (by simp)
    rw [pathAt_snoc, bareSize_join hdirectory hname, utf8ByteSize_join hdirectory hname, ih habove,
      cost_snoc, Nat.add_assoc]

/-- The room that is left for a place is the room for its path. -/
theorem cost_le_iff {root : String} (hroot : root ≠ "") {size : Nat}
    (hsize : root.utf8ByteSize ≤ size) {place : Place} (h : ∀ name ∈ place, IsName name) :
    cost place ≤ size - bareSize root ↔ (pathAt root place).utf8ByteSize ≤ size := by
  have hbare : bareSize root ≤ root.utf8ByteSize := Nat.sub_le _ _
  cases place using List.reverseRecOn with
  | nil => exact iff_of_true (Nat.zero_le _) hsize
  | append_singleton above name =>
    have habove : ∀ n ∈ above, IsName n := fun n hn => h n (by simp [hn])
    have hdirectory := pathAt_ne_empty hroot habove
    have hpath := bareSize_pathAt hroot h
    rw [pathAt_snoc, bareSize_join hdirectory (h name (by simp)), ← pathAt_snoc] at hpath
    omega

/-- A regular file below a path. The path itself may lead through links and, to a directory, be
one; below it none is followed, and no directory is looked into whose path is too long. -/
def IsFileBelow (disk : Disk) (root : String) (place : Place) : Prop :=
  ∃ tree, disk.tree? root = some tree ∧ tree.IsRegular place ∧
    ∀ above, above <+: place → above ≠ place →
      (pathAt root above).utf8ByteSize ≤ maxPathLength

theorem root_of_tree? {disk : Disk} {root : String} {tree : FileTree}
    (h : disk.tree? root = some tree) : root ≠ "" ∧ root.utf8ByteSize ≤ maxPathLength := by
  rw [Disk.tree?] at h
  split at h
  · rename_i place hlocate
    obtain ⟨hne, hrefused, -⟩ := Disk.locate_eq_ok.mp hlocate
    simp only [Disk.isRefused, Bool.or_eq_true, decide_eq_true_eq, not_or, not_lt] at hrefused
    exact ⟨hne, hrefused.2⟩
  · cases h

theorem proper_of_tree? {disk : Disk} (hproper : disk.root.Proper) {root : String}
    {tree : FileTree} (h : disk.tree? root = some tree) : tree.Proper := by
  rw [Disk.tree?] at h
  split at h
  · split at h
    · obtain ⟨hentry, -⟩ := Option.filter_eq_some_iff.mp h
      obtain ⟨place, -, hat⟩ := Option.bind_eq_some_iff.mp hentry
      exact proper_of_at? hproper hat
    · exact proper_of_at? hproper h
  · cases h

theorem IsFileBelow.isName {disk : Disk} (hproper : disk.root.Proper) {root : String}
    {place : Place} (h : IsFileBelow disk root place) : ∀ name ∈ place, IsName name := by
  obtain ⟨tree, htree, hregular, -⟩ := h
  exact hregular.isName (proper_of_tree? hproper htree)

/-- The files below a path are those that the walk of a listing comes to. -/
theorem isFileBelow_iff {disk : Disk} (hproper : disk.root.Proper) {root : String}
    {tree : FileTree} (htree : disk.tree? root = some tree) {place : Place} :
    IsFileBelow disk root place ↔
      tree.IsRegular place ∧ ∀ above, above <+: place →
        tree.IsRegular above ∨ cost above ≤ maxPathLength - bareSize root := by
  obtain ⟨hroot, hsize⟩ := root_of_tree? htree
  have hbelow : IsFileBelow disk root place ↔ tree.IsRegular place ∧
      ∀ above, above <+: place → above ≠ place →
        (pathAt root above).utf8ByteSize ≤ maxPathLength := by
    simp [IsFileBelow, htree]
  rw [hbelow]
  refine and_congr_right fun hplace => ?_
  rw [hplace.forall_above_iff]
  refine forall₂_congr fun above habove => ?_
  have hnames : ∀ name ∈ above, IsName name := fun name hname =>
    hplace.isName (proper_of_tree? hproper htree) name (habove.subset hname)
  rw [cost_le_iff hroot hsize hnames]

/-- What is found is in the places of the files that are named like sources, in order. -/
theorem find_eq_map {disk : Disk} (hproper : disk.root.Proper) (root : String) :
    ∃ found : List Place, find root disk = found.map (pathAt root) ∧ found.Pairwise (· < ·) ∧
      ∀ place, place ∈ found ↔
        IsFileBelow disk root place ∧ IsSource (nameOf (pathAt root place)) := by
  cases htree : disk.tree? root with
  | none => exact ⟨[], by simp [find, Disk.listing?, htree], .nil, by simp [IsFileBelow, htree]⟩
  | some tree =>
    have hwalk := isWalk_within (proper_of_tree? hproper htree) (maxPathLength - bareSize root)
    have hlists := lists_select hwalk some (nameOf root)
    refine ⟨_, by rw [find, Disk.listing?, htree]; rfl, hlists.sorted, fun place => ?_⟩
    rw [hlists.mem_iff, ← isFileBelow_iff hproper htree]
    refine and_congr_right fun hplace => ?_
    rw [nameOf_pathAt root (hplace.isName hproper)]
    simp

/-- Different places have different components, and so different paths. -/
theorem IsFileBelow.components {disk : Disk} (hproper : disk.root.Proper) {root : String}
    {place : Place} (h : IsFileBelow disk root place) :
    Path.components (pathAt root place) = Path.components root ++ place := by
  obtain ⟨tree, htree, -⟩ := id h
  exact components_pathAt (root_of_tree? htree).1 (h.isName hproper)

theorem sorted_find {disk : Disk} (hproper : disk.root.Proper) (root : String) :
    (find root disk).Pairwise fun a b => Path.components a < Path.components b := by
  obtain ⟨found, hfound, hsorted, hmem⟩ := find_eq_map hproper root
  rw [hfound, List.pairwise_map]
  refine hsorted.imp_of_mem fun ha hb hlt => ?_
  rw [((hmem _).mp ha).1.components hproper, ((hmem _).mp hb).1.components hproper]
  exact List.append_left_lt hlt

theorem eq_join_of_nearest {disk : Disk} {start path : String}
    (h : Source.Nearest disk start path) :
    ∃ directory, ∃ name ∈ Source.fileNames, path = Path.join directory name := by
  induction h with
  | here h =>
    obtain ⟨before, name, after, hnames, hpath, -⟩ := h
    exact ⟨_, name, by simp [hnames], hpath⟩
  | above _ _ _ ih => exact ih

theorem isSource_of_run_find? {disk : Disk} {start path : String}
    (h : (Source.find? start : StateM Disk (Option String)).run disk = (some path, disk)) :
    IsSource (nameOf path) := by
  obtain ⟨directory, name, hname, rfl⟩ :=
    eq_join_of_nearest (Source.run_find?_eq_some_iff.mp h)
  rw [nameOf, Path.fileName?_join directory (isName_of_mem_fileNames name hname)]
  exact isSource_of_mem_fileNames name hname

/-- A directory is said to hold the regular files below it that are named like sources, each one
once and in the order of the path components, among them every file that can be found as the source
of a directory. The like holds of every walk that comes to each entry once, also of one through
names that are no text: what cannot be read only hides what is below it. -/
theorem find_sources {disk : Disk} (hproper : disk.root.Proper) (root : String) :
    (∀ path, path ∈ find root disk ↔
      IsSource (nameOf path) ∧ ∃ place, IsFileBelow disk root place ∧ path = pathAt root place) ∧
    (find root disk).Nodup ∧
    (find root disk).Pairwise (fun a b => Path.components a < Path.components b) ∧
    (∀ (place : Place) (start : String) (other : Disk), IsFileBelow disk root place →
      (Source.find? start : StateM Disk (Option String)).run other =
          (some (pathAt root place), other) →
        pathAt root place ∈ find root disk) ∧
    ∀ (Name : Type) [LinearOrder Name] (text? : Name → Option String) (top : Name)
      (regular readable : List Name → Prop) (visits : List (Option (Visit Name))),
      IsWalk regular readable visits →
        Lists text? top regular readable (select text? top visits) ∧
        ∀ all, IsWalk regular (fun _ => True) all →
          (select text? top visits).Sublist (select text? top all) ∧
          ∀ place, place ∈ select text? top visits ↔
            place ∈ select text? top all ∧ ∀ above, above <+: place → readable above := by
  have hmem : ∀ path, path ∈ find root disk ↔ IsSource (nameOf path) ∧
      ∃ place, IsFileBelow disk root place ∧ path = pathAt root place := by
    obtain ⟨found, hfound, -, hplaces⟩ := find_eq_map hproper root
    intro path
    rw [hfound, List.mem_map]
    constructor
    · rintro ⟨place, hplace, rfl⟩
      obtain ⟨hbelow, hsource⟩ := (hplaces place).mp hplace
      exact ⟨hsource, place, hbelow, rfl⟩
    · rintro ⟨hsource, place, hbelow, rfl⟩
      exact ⟨place, (hplaces place).mpr ⟨hbelow, hsource⟩, rfl⟩
  have hsorted := sorted_find hproper root
  refine ⟨hmem, ?_, hsorted, ?_, ?_⟩
  · refine hsorted.imp fun hlt heq => ?_
    rw [heq] at hlt
    exact lt_irrefl _ hlt
  · intro place start other hbelow hfind
    exact (hmem _).mpr ⟨isSource_of_run_find? hfind, place, hbelow, rfl⟩
  · intro Name _ text? top regular readable visits hvisits
    have hlists := lists_select hvisits text? top
    refine ⟨hlists, fun all hall => ?_⟩
    have hlistsAll := lists_select hall text? top
    exact ⟨hlistsAll.sublist hlists, hlistsAll.mem_iff_of_readable hlists⟩

def packages : Disk :=
  ⟨.directory [
    ("usagi.config.yaml", .file .empty),
    ("a.b", .directory [("base.usagi.yml", .file .empty)]),
    ("a", .directory [("ci.usagi.json", .file .empty), ("readme.md", .file .empty)]),
    ("latest", .link "a"),
    ("private", .closed)], []⟩

theorem proper_packages : packages.root.Proper :=
  ⟨by decide, by decide, trivial, by decide,
    ⟨by decide, by decide, trivial, trivial⟩, by decide,
    ⟨by decide, by decide, trivial, by decide, trivial, trivial⟩,
    by decide, trivial, by decide, trivial, trivial⟩

theorem tree?_packages : packages.tree? "." = some packages.root := by
  have hrefused : Disk.isRefused "." = false := by
    rw [Disk.isRefused, String.contains_char_eq]
    decide
  have hlocate : packages.locate false "." = .ok (.entry []) := by
    refine Disk.locate_eq_ok.mpr ⟨by decide, by simp [hrefused], rfl, ?_⟩
    rw [show Path.parts "." = ["."] by decide]
    simp [walkOn, Disk.startOf, packages]
  rw [Disk.tree?, hlocate]
  rfl

theorem isFileBelow_packages {place : Place} (h : packages.root.IsRegular place)
    (hfits : ∀ above ∈ place.inits, (pathAt "." above).utf8ByteSize ≤ maxPathLength) :
    IsFileBelow packages "." place :=
  ⟨_, tree?_packages, h, fun above habove _ => hfits above ((List.mem_inits _ _).mpr habove)⟩

theorem find?_packages : (Source.find? "." : StateM Disk (Option String)).run packages =
    (some "./usagi.config.yaml", packages) := by
  have hpath : "./usagi.config.yaml" = Path.join "." "usagi.config.yaml" := by decide
  have hnames : Disk.NamesInRoot "./usagi.config.yaml" "usagi.config.yaml" := by decide
  have hlocate : packages.locate true "./usagi.config.yaml" = .ok (.entry ["usagi.config.yaml"]) :=
    Disk.locate_inRoot hnames (by simp [FileTree.isFile])
  have hcontent : packages.content? "./usagi.config.yaml" = some .empty :=
    Disk.content?_eq_some_iff.mpr ⟨_, hlocate, rfl⟩
  exact Source.run_find?_eq_some_iff.mpr
    (.here ⟨[], _, _, rfl, hpath, Disk.isFile_iff.mpr ⟨_, hcontent⟩, by simp⟩)

/-- What can be found as the source of a directory is listed, and so is what lies deeper. When only
paths of two more bytes are looked into, one directory is closed and the other keeps its source. -/
theorem find_packages :
    packages.root.Proper ∧
    "./a/ci.usagi.json" ∈ find "." packages ∧
    "./a/readme.md" ∉ find "." packages ∧
    "./usagi.config.yaml" ∈ find "." packages ∧
    ["a.b", "base.usagi.yml"] ∈ select some "." packages.root.visits ∧
    ["a.b", "base.usagi.yml"] ∉ select some "." (packages.root.within 2).visits ∧
    ["a", "ci.usagi.json"] ∈ select some "." (packages.root.within 2).visits := by
  obtain ⟨hmem, -, -, hfound, hwalks⟩ := find_sources proper_packages "."
  have hwithin := isWalk_within proper_packages 2
  have hvisits := isWalk_visits proper_packages
  obtain ⟨hlists, hall⟩ := hwalks String some "." _ _ _ hwithin
  obtain ⟨hlistsAll, -⟩ := hwalks String some "." _ _ _ hvisits
  obtain ⟨-, hless⟩ := hall _ hvisits
  have hbase : ["a.b", "base.usagi.yml"] ∈ select some "." packages.root.visits :=
    (hlistsAll.mem_iff _).mpr ⟨⟨⟨_, rfl⟩, fun _ _ => trivial⟩, _, rfl, by decide⟩
  refine ⟨proper_packages, ?_, ?_, ?_, hbase, ?_, ?_⟩
  · have hplace : IsFileBelow packages "." ["a", "ci.usagi.json"] :=
      isFileBelow_packages ⟨_, rfl⟩ (by decide)
    exact (hmem _).mpr ⟨by decide, _, hplace, by decide⟩
  · intro hreadme
    obtain ⟨hsource, -⟩ := (hmem _).mp hreadme
    exact absurd hsource (by decide)
  · have hplace : IsFileBelow packages "." ["usagi.config.yaml"] :=
      isFileBelow_packages ⟨_, rfl⟩ (by decide)
    exact hfound _ "." packages hplace find?_packages
  · intro hfew
    rcases ((hless _).mp hfew).2 ["a.b"] (by simp) with ⟨content, hfile⟩ | hcost
    · cases hfile
    · exact absurd hcost (by decide)
  · have hregular : packages.root.IsRegular ["a", "ci.usagi.json"] := ⟨_, rfl⟩
    have hseen : (packages.root.within 2).IsRegular ["a", "ci.usagi.json"] := ⟨.empty, rfl⟩
    have hway := hregular.forall_above_iff.mpr (isRegular_within.mp hseen).2
    exact (hlists.mem_iff _).mpr ⟨⟨hregular, hway⟩, _, rfl, by decide⟩

end FlatConfig.Package
