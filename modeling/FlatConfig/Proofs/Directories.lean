import FlatConfig.Proofs.Disk
import FlatConfig.Proofs.Path

set_option autoImplicit false

namespace FlatConfig

/-- A way that comes through passes some place after each part of it, and goes on from there. -/
theorem FileTree.walkOn_append {look : Place → Option FileTree} {links : Nat} {start : Place}
    {parts back : List String} {location : Location} (hback : back ≠ [])
    (h : walkOn look true links start (parts ++ back) = .ok location) :
    ∃ left place, walkOn look true links start parts = .ok (.entry place) ∧
      ∀ more, more ≠ [] →
        walkOn look true links start (parts ++ more) = walkOn look true left place more := by
  fun_induction walkOn look true links start parts with
  | case1 links start => exact ⟨links, start, rfl, fun _ _ => rfl⟩
  | case2 links start part rest hskip ih =>
    have hgo : ∀ more, walkOn look true links start (part :: rest ++ more) =
        walkOn look true links start (rest ++ more) := fun more => by
      rw [List.cons_append, walkOn, if_pos hskip]
    rw [hgo] at h
    simpa only [hgo] using ih h
  | case3 links start rest hskip ih =>
    have hgo : ∀ more, walkOn look true links start (".." :: rest ++ more) =
        walkOn look true links start.dropLast (rest ++ more) := fun more => by
      rw [List.cons_append, walkOn, if_neg hskip, if_pos rfl]
    rw [hgo] at h
    simpa only [hgo] using ih h
  | case4 links start part rest hskip hup hlong =>
    rw [List.cons_append, walkOn, if_neg hskip, if_neg hup, if_pos hlong] at h
    cases h
  | case5 links start part rest hskip hup hlong entries hd hl hr
  | case6 links start part rest hskip hup hlong entries hd hl hr =>
    rw [List.cons_append, walkOn_name hd hskip hup hlong, hl] at h
    simp [hback] at h
  | case7 links start part rest hskip hup hlong entries hd old hl hr
  | case8 links start part rest hskip hup hlong entries hd old hl hr =>
    rw [List.cons_append, walkOn_name hd hskip hup hlong, hl] at h
    simp [hback] at h
  | case9 links start part rest hskip hup hlong entries hd target hl hr => simp at hr
  | case10 start part rest hskip hup hlong entries hd target hl hr =>
    rw [List.cons_append, walkOn_name hd hskip hup hlong, hl] at h
    simp at h
  | case11 start part rest hskip hup hlong entries hd target hl hr links ih =>
    have hgo : ∀ more, walkOn look true (links + 1) start (part :: rest ++ more) =
        walkOn look true links (if Path.isAbsolute target then [] else start)
          (Path.parts target ++ rest ++ more) := fun more => by
      rw [List.cons_append, walkOn_name hd hskip hup hlong, hl, List.append_assoc]
      simp
    rw [hgo] at h
    simpa only [hgo, dite_eq_ite] using ih h
  | case12 links start part rest hskip hup hlong entries hd tree hfile hlink hl ih =>
    have hgo : ∀ more, walkOn look true links start (part :: rest ++ more) =
        walkOn look true links (start ++ [part]) (rest ++ more) := fun more => by
      rw [List.cons_append, walkOn_name hd hskip hup hlong, hl]
      cases tree with
      | file old => exact absurd rfl (hfile old)
      | link target => exact absurd rfl (hlink target)
      | _ => rfl
    rw [hgo] at h
    simpa only [hgo] using ih h
  | case13 links start part rest hskip hup hlong hd =>
    rw [List.cons_append, walkOn, if_neg hskip, if_neg hup, if_neg hlong] at h
    split at h
    · rename_i entries hentries
      exact absurd hentries (hd entries)
    · cases h

namespace Disk

open FileTree

theorem isRefused_front {front back : String} (h : isRefused (front ++ back) = false) :
    isRefused front = false := by
  simp only [isRefused, String.contains_char_eq, String.toList_append, String.utf8ByteSize_append,
    Bool.or_eq_false_iff, decide_eq_false_iff_not] at h ⊢
  obtain ⟨hzero, hsize⟩ := h
  refine ⟨?_, by omega⟩
  simp at hzero ⊢
  exact hzero.1

theorem splitLast_cases (path : String) :
    splitLast path = (path, "") ∨
      ∃ above name rest, Path.parts path = above ++ name :: rest ∧ name ≠ "" ∧
        splitLast path =
          ("/".intercalate above ++ (if above.isEmpty then "." else "/"), name) := by
  have hparts : (Path.parts path).reverse.takeWhile (· == "") ++
      (Path.parts path).reverse.dropWhile (· == "") = (Path.parts path).reverse :=
    List.takeWhile_append_dropWhile
  rw [splitLast]
  split
  · exact .inl rfl
  · rename_i name above h
    have hname := List.head?_dropWhile_not (· == "") (Path.parts path).reverse
    simp only [h, List.head?_cons, beq_eq_false_iff_ne] at hname
    rw [h, ← List.reverse_eq_iff] at hparts
    exact .inr ⟨above.reverse, name, _, by simpa using hparts.symm, hname, by simp⟩

theorem walkOn_here (look : Place → Option FileTree) (links : Nat) (start : Place) :
    walkOn look true links start [""] = .ok (.entry start) := by simp [walkOn]

theorem locate_above {disk : Disk} {path name : String} {above rest : List String}
    {location : Location} (h : disk.locate true path = .ok location)
    (hparts : Path.parts path = above ++ name :: rest) (hname : name ≠ "") :
    ∃ left place,
      disk.locate true ("/".intercalate above ++ (if above.isEmpty then "." else "/")) =
        .ok (.entry place) ∧
      walkOn disk.root.surface? true left place (name :: rest) = .ok location := by
  obtain ⟨_, hrefused, hstart, hwalk⟩ := locate_eq_ok.mp h
  rw [hparts] at hwalk
  cases above with
  | nil =>
    have hrelative : ¬ Path.isAbsolute path = true := by
      rw [Path.isAbsolute_iff, hparts]
      rintro ⟨part, more, hmore⟩
      exact hname (List.cons.inj hmore).1
    have hcurrent : disk.startOf path = disk.startOf "." := by
      rw [startOf, startOf, if_neg hrelative, if_neg (by decide)]
    rw [hcurrent] at hstart hwalk
    refine ⟨maxLinks, disk.startOf ".", locate_eq_ok.mpr ⟨by decide, ?_, hstart, ?_⟩, hwalk⟩
    · rw [isRefused, String.contains_char_eq]
      decide +kernel
    · have hdot : Path.parts "." = ["."] := by decide +kernel
      simp [hdot, walkOn]
  | cons first more =>
    obtain ⟨left, place, hfront, hgo⟩ := walkOn_append (by simp) hwalk
    rw [hgo _ (by simp)] at hwalk
    have hpath := Path.eq_of_parts_eq_append hparts (by simp) (by simp)
    have hfrontParts : Path.parts ("/".intercalate (first :: more) ++ "/") =
        first :: more ++ [""] := by
      have hfree : ∀ part ∈ first :: more, '/' ∉ part.toList := fun part hpart => by
        have hmem : part ∈ Path.parts path := hparts ▸ List.mem_append_left _ hpart
        exact Path.slash_not_mem_of_mem_parts hmem
      have hslash := Path.parts_append_slash ("/".intercalate (first :: more)) ""
      rwa [String.append_empty, Path.parts_empty, Path.parts_intercalate hfree (by simp)] at hslash
    simp only [List.isEmpty_cons, Bool.false_eq_true, if_false]
    generalize "/".intercalate (first :: more) ++ "/" = front at hpath hfrontParts ⊢
    have hne : front ≠ "" := by
      rintro rfl
      simp [Path.parts_empty] at hfrontParts
    have hsame : disk.startOf path = disk.startOf front := by
      rw [startOf, startOf, hpath, Path.isAbsolute_append hne]
    rw [hsame] at hstart hgo
    refine ⟨left, place, locate_eq_ok.mpr ⟨hne, ?_, hstart, ?_⟩, hwalk⟩
    · rw [hpath, Bool.not_eq_true] at hrefused
      simp [isRefused_front hrefused]
    · rw [hfrontParts, hgo _ (by simp), walkOn_here]

theorem makeDirectory_of_isDirectory {disk : Disk} {path : String}
    (h : disk.isDirectory path = true) : disk.makeDirectory path = .error .blocked := by
  obtain ⟨place, hl⟩ : ∃ place, disk.locate true path = .ok (.entry place) := by
    simp only [isDirectory, entry?, place?] at h
    split at h
    · rename_i place hl
      exact ⟨place, hl⟩
    · simp at h
  obtain ⟨hempty, hrefused, -, -⟩ := locate_eq_ok.mp hl
  rw [Bool.not_eq_true] at hrefused
  rcases splitLast_cases path with hsplit | ⟨above, name, rest, hparts, hname, hsplit⟩
  · simp [makeDirectory, hsplit, hempty, hrefused, hl]
  · obtain ⟨left, q, habove, hrest⟩ := locate_above hl hparts hname
    simp only [makeDirectory, hsplit, hempty, hrefused, habove, if_false, Bool.false_eq_true]
    split
    · rfl
    · rename_i hplain
      simp only [not_or] at hplain
      split
      · rename_i entries hat
        have hd : disk.root.surface? q = some (.directory []) := by simp [surface?, hat, surface]
        rw [walkOn_name hd (by simp [hplain]) hplain.2.2.1 hplain.2.2.2, surface?_snoc hat] at hrest
        cases hlookup : entries.lookup name with
        | some tree => simp
        | none =>
          rw [hlookup] at hrest
          cases rest <;> simp at hrest
      · rfl

/-- Making a directory that is there, and all above it, changes nothing. -/
theorem makeDirectories_of_isDirectory {disk : Disk} {path : String}
    (h : disk.isDirectory path = true) : disk.makeDirectories path = (true, disk) := by
  have hempty : path ≠ "" := by
    rintro rfl
    simp [isDirectory, entry?, place?, locate] at h
  rw [makeDirectories, Path.ancestors, makeChain, if_neg hempty, makeDirectory_of_isDirectory h]
  simp [ensureDirectory, makeDirectory_of_isDirectory h, h]

/-- A path to a file in a directory passes the directory. -/
theorem isDirectory_of_isFile_join {disk : Disk} {directory name : String}
    (hd : directory ≠ "") (hslash : '/' ∉ name.toList) (hskip : ¬ (name = "" ∨ name = "."))
    (hup : name ≠ "..") (h : disk.isFile (Path.join directory name) = true) :
    disk.isDirectory directory = true := by
  obtain ⟨back, above, hjoin, hparts, habove⟩ := Path.join_spec hd hslash
  obtain ⟨content, hcontent⟩ := isFile_iff.mp h
  obtain ⟨place, hl, -⟩ := content?_eq_some_iff.mp hcontent
  obtain ⟨-, hrefused, hstart, hwalk⟩ := locate_eq_ok.mp hl
  have hsame : disk.startOf (Path.join directory name) = disk.startOf directory := by
    rw [startOf, startOf, hjoin, Path.isAbsolute_append hd]
  rw [hsame] at hstart hwalk
  rw [hjoin, Bool.not_eq_true] at hrefused
  rw [hparts] at hwalk
  obtain ⟨left, q, hfront, hgo⟩ := walkOn_append (by simp) hwalk
  have hlocate : disk.locate true directory = .ok (.entry q) := by
    refine locate_eq_ok.mpr ⟨hd, by simp [isRefused_front hrefused], hstart, ?_⟩
    rcases habove with h | h
    · rw [h, hfront]
    · rw [h, hgo _ (by simp), walkOn_here]
  rw [hgo _ (by simp), walkOn, if_neg hskip, if_neg hup] at hwalk
  split at hwalk
  · cases hwalk
  · split at hwalk
    · rename_i entries hd
      obtain ⟨tree, hat, hs⟩ := Option.map_eq_some_iff.mp hd
      cases tree with
      | directory inner => simp [isDirectory, entry?, place?, hlocate, hat, FileTree.isDirectory]
      | _ => simp [surface] at hs
    · cases hwalk

end Disk
end FlatConfig
