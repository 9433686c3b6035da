import FlatConfig.Host
import FlatConfig.Proofs.FileTree

set_option autoImplicit false

namespace FlatConfig

open FileTree

theorem FileTree.isIn_of_trailFrom? {root tree : FileTree} {trail found : Trail} {place : Place}
    (hin : trail.IsIn root) (ht : trail.target root = tree)
    (h : tree.trailFrom? trail place = some found) :
    found.IsIn root ∧ found.place = trail.place ++ place := by
  induction place generalizing tree trail with
  | nil =>
    obtain rfl : trail = found := by simpa [trailFrom?] using h
    simp [hin]
  | cons name rest ih =>
    cases hc : tree.child? name with
    | none => simp [trailFrom?, hc] at h
    | some child =>
      have hnext : Trail.IsIn root ((name, child) :: trail) := ⟨by rw [ht]; exact hc, hin⟩
      have hrest : child.trailFrom? ((name, child) :: trail) rest = some found := by
        simpa [trailFrom?, hc] using h
      simpa [Trail.place_cons] using ih hnext rfl hrest

theorem FileTree.trailFrom?_isSome (tree : FileTree) (trail : Trail) (place : Place) :
    (tree.trailFrom? trail place).isSome = (tree.at? place).isSome := by
  induction place generalizing tree trail with
  | nil => rfl
  | cons name rest ih => cases hc : tree.child? name <;> simp [trailFrom?, at?, hc, ih]

namespace Disk

def startOf (disk : Disk) (path : String) : Place :=
  if Path.isAbsolute path then [] else disk.current

theorem locate_eq_ok {disk : Disk} {followLast : Bool} {path : String} {location : Location} :
    disk.locate followLast path = .ok location ↔
      path ≠ "" ∧ ¬ isRefused path ∧ (disk.root.surface? (disk.startOf path)).isSome ∧
        walkOn disk.root.surface? followLast maxLinks (disk.startOf path) (Path.parts path) =
          .ok location := by
  have hstart := disk.root.trailFrom?_isSome [] (disk.startOf path)
  have hsome : (disk.root.surface? (disk.startOf path)).isSome =
      (disk.root.at? (disk.startOf path)).isSome := by simp [surface?]
  rw [hsome, ← hstart, locate, ← startOf]
  by_cases hempty : path = ""
  · simp [hempty]
  by_cases hrefused : isRefused path = true
  · simp [hempty, hrefused]
  cases h : disk.root.trailFrom? [] (disk.startOf path) with
  | none => simp [hempty, hrefused]
  | some found =>
    have htop : Trail.IsIn disk.root [] := trivial
    obtain ⟨hin, hplace⟩ := isIn_of_trailFrom? htop rfl h
    have hwalk := walk_eq followLast maxLinks hin (Path.parts path)
    rw [show found.place = disk.startOf path from hplace] at hwalk
    simp [hempty, hrefused, hwalk]

/-- A place for a file: nothing or a file is there, and all above it are directories. -/
structure Accepts (disk : Disk) (place : Place) : Prop where
  room : HasRoom place disk.root
  free : IsFree (disk.root.surface? place)

theorem accepts_of_vacant {disk : Disk} {followLast : Bool} {path : String} {place : Place}
    (h : disk.locate followLast path = .ok (.vacant place)) : disk.Accepts place := by
  obtain ⟨_, _, _, h⟩ := locate_eq_ok.mp h
  obtain ⟨hnone, above, name, entries, rfl, hd⟩ := walkOn_eq_vacant h
  refine ⟨?_, by rw [hnone]; trivial⟩
  obtain ⟨tree, hat, hs⟩ := Option.map_eq_some_iff.mp hd
  cases tree with
  | directory inner => exact hasRoom_snoc hat
  | _ => simp [surface] at hs

theorem accepts_of_file {disk : Disk} {place : Place} {content : ByteArray}
    (h : disk.root.at? place = some (.file content)) : disk.Accepts place :=
  ⟨hasRoom_of_at? h, by simp [surface?, h, surface, IsFree]⟩

theorem surface?_withEntry {disk : Disk} {place : Place} (h : disk.Accepts place)
    (content : ByteArray) :
    (disk.withEntry place (.file content)).root.surface? place = some (.file content) := by
  simp [withEntry, surface?, at?_put_self h.room, surface]

/-- A file that is written leaves every path where it led. -/
theorem locate_withEntry {disk : Disk} {place : Place} (hp : disk.Accepts place)
    (content : ByteArray) {followLast : Bool} {path : String} {location : Location}
    (h : disk.locate followLast path = .ok location) :
    (disk.withEntry place (.file content)).locate followLast path =
      .ok (if location = .vacant place then .entry place else location) := by
  have hnew := surface?_withEntry hp content
  have hother : ∀ other, other ≠ place →
      (disk.withEntry place (.file content)).root.surface? other = disk.root.surface? other :=
    fun other hne => surface?_put hp.room hp.free content hne
  obtain ⟨hempty, hrefused, hstart, h⟩ := locate_eq_ok.mp h
  refine locate_eq_ok.mpr ⟨hempty, hrefused, ?_, walkOn_replace hp.free hnew hother h⟩
  by_cases hs : disk.startOf path = place
  · have hs' : (disk.withEntry place (.file content)).startOf path = place := hs
    simp [hs', hnew]
  · rwa [← hother _ hs] at hstart

theorem modify?_eq_some {disk changed : Disk} {path : String} {f : ByteArray → ByteArray}
    (h : disk.modify? path f = some changed) :
    ∃ place content, disk.Accepts place ∧ changed = disk.withEntry place (.file content) ∧
      changed.locate true path = .ok (.entry place) ∧
      (disk.locate true path = .ok (.vacant place) ∧ content = f .empty ∨
        ∃ old, disk.locate true path = .ok (.entry place) ∧
          disk.root.at? place = some (.file old) ∧ content = f old) := by
  unfold modify? at h
  split at h
  · rename_i place hl
    have hp := accepts_of_vacant hl
    refine ⟨place, f .empty, hp, (Option.some.inj h).symm, ?_, .inl ⟨hl, rfl⟩⟩
    rw [← Option.some.inj h, locate_withEntry hp _ hl, if_pos rfl]
  · rename_i place hl
    split at h
    · rename_i old hat
      have hp := accepts_of_file hat
      refine ⟨place, f old, hp, (Option.some.inj h).symm, ?_, .inr ⟨old, hl, hat, rfl⟩⟩
      rw [← Option.some.inj h, locate_withEntry hp _ hl]
      simp
    · contradiction
  · contradiction

/-- The file at the end of a path is written, and in every other place the disk is as before. -/
structure Wrote (disk : Disk) (path : String) (content : ByteArray) (place : Place)
    (changed : Disk) : Prop where
  leads : changed.locate true path = .ok (.entry place)
  free : IsFree (disk.root.surface? place)
  holds : changed.root.surface? place = some (.file content)
  others : ∀ other, other ≠ place → changed.root.surface? other = disk.root.surface? other

theorem wrote_of_write? {disk changed : Disk} {path : String} {content : ByteArray}
    (h : disk.write? path content = some changed) :
    ∃ place, disk.Wrote path content place changed := by
  obtain ⟨place, written, hp, rfl, hl, hw⟩ := modify?_eq_some h
  obtain rfl : written = content := by
    rcases hw with ⟨_, rfl⟩ | ⟨old, _, _, rfl⟩ <;> rfl
  exact ⟨place, hl, hp.free, surface?_withEntry hp written,
    fun other hne => surface?_put hp.room hp.free written hne⟩

theorem content?_eq_some_iff {disk : Disk} {path : String} {content : ByteArray} :
    disk.content? path = some content ↔
      ∃ place, disk.locate true path = .ok (.entry place) ∧
        disk.root.surface? place = some (.file content) := by
  rw [content?, entry?, place?]
  cases disk.locate true path with
  | error e => simp
  | ok location =>
    cases location with
    | vacant place => simp
    | entry place =>
      cases h : disk.root.at? place with
      | none => simp [surface?, h]
      | some tree => cases tree <;> simp [surface?, h, surface]

theorem isFile_iff {disk : Disk} {path : String} :
    disk.isFile path = true ↔ ∃ content, disk.content? path = some content := by
  rw [isFile, content?]
  cases disk.entry? path with
  | none => simp
  | some tree => cases tree <;> simp [FileTree.isFile]

theorem run_write (disk : Disk) (path text : String) :
    (Host.write path text : StateM Disk Bool).run disk =
      match disk.write? path text.toUTF8 with
      | some changed => (true, changed)
      | none => (false, disk) := rfl

theorem content?_of_write? {disk changed : Disk} {path : String} {content : ByteArray}
    (h : disk.write? path content = some changed) : changed.content? path = some content := by
  obtain ⟨place, hw⟩ := wrote_of_write? h
  exact content?_eq_some_iff.mpr ⟨place, hw.leads, hw.holds⟩

theorem content?_of_write?_absent {disk changed : Disk} {path other : String}
    {content old : ByteArray} (habsent : disk.isPresent path = false)
    (h : disk.write? path content = some changed) (hother : disk.content? other = some old) :
    changed.content? other = some old := by
  obtain ⟨place, written, hp, rfl, -, hw⟩ := modify?_eq_some h
  have hvacant : disk.locate true path = .ok (.vacant place) := by
    rcases hw with ⟨hl, -⟩ | ⟨was, hl, hat, -⟩
    · exact hl
    · simp [isPresent, entry?, place?, hl, hat] at habsent
  obtain ⟨_, _, _, hwalk⟩ := locate_eq_ok.mp hvacant
  obtain ⟨q, hl, hs⟩ := content?_eq_some_iff.mp hother
  have hne : q ≠ place := by
    rintro rfl
    rw [(walkOn_eq_vacant hwalk).1] at hs
    cases hs
  refine content?_eq_some_iff.mpr ⟨q, ?_, ?_⟩
  · rw [locate_withEntry hp _ hl]
    simp
  · rw [← hs]
    exact surface?_put hp.room hp.free _ hne

theorem isPresent_of_content? {disk : Disk} {path : String} {content : ByteArray}
    (h : disk.content? path = some content) : disk.isPresent path = true := by
  unfold content? at h
  split at h
  · rename_i entry
    simp [isPresent, entry]
  · contradiction

theorem read?_of_content? {disk : Disk} {path text : String}
    (h : disk.content? path = some text.toUTF8) : disk.read? path = some text := by
  have hvalid : text.toUTF8.IsValidUTF8 := text.isValidUTF8
  rw [read?, h, Option.bind_some, String.fromUTF8?, dif_pos hvalid]
  rfl

theorem read?_of_write? {disk changed : Disk} {path text : String}
    (h : disk.write? path text.toUTF8 = some changed) : changed.read? path = some text :=
  read?_of_content? (content?_of_write? h)

def NamesInRoot (path name : String) : Prop :=
  path ≠ "" ∧ '\x00' ∉ path.toList ∧ path.utf8ByteSize ≤ maxPathLength ∧
    (Path.parts path).dropWhile (fun part => part = "" ∨ part = ".") = [name] ∧
      name ≠ ".." ∧ name.utf8ByteSize ≤ maxNameLength

instance (path name : String) : Decidable (NamesInRoot path name) :=
  inferInstanceAs (Decidable (_ ∧ _))

theorem walkOn_dropWhile (look : Place → Option FileTree) (followLast : Bool) (links : Nat)
    (start : Place) (parts : List String) :
    walkOn look followLast links start (parts.dropWhile fun part => part = "" ∨ part = ".") =
      walkOn look followLast links start parts := by
  induction parts with
  | nil => rfl
  | cons part rest ih =>
    by_cases h : part = "" ∨ part = "."
    · rw [List.dropWhile_cons_of_pos (by simpa using h), ih, walkOn, if_pos h]
    · rw [List.dropWhile_cons_of_neg (by simpa using h)]

theorem locate_inRoot {entries : List (String × FileTree)} {path name : String}
    (h : NamesInRoot path name)
    (hfile : ∀ tree, entries.lookup name = some tree → tree.isFile = true) :
    (⟨.directory entries, []⟩ : Disk).locate true path =
      .ok (if (entries.lookup name).isSome then .entry [name] else .vacant [name]) := by
  obtain ⟨hempty, hzero, hsize, hparts, hup, hlong⟩ := h
  have hskip : ¬ (name = "" ∨ name = ".") := by
    have hhead := List.head?_dropWhile_not (fun part : String => decide (part = "" ∨ part = "."))
      (Path.parts path)
    rw [hparts] at hhead
    simpa using hhead
  have hstart : (⟨.directory entries, []⟩ : Disk).startOf path = [] := by simp [startOf]
  have hroot : (FileTree.directory entries).surface? [] = some (.directory []) := rfl
  refine locate_eq_ok.mpr ⟨hempty, ?_, by simp [hstart, hroot], ?_⟩
  · simp [isRefused, String.contains_char_eq, hzero, hsize]
  · have hname : (FileTree.directory entries).surface? ([] ++ [name]) =
        (entries.lookup name).map surface := surface?_snoc rfl name
    rw [← walkOn_dropWhile, hparts, hstart, walkOn_name hroot hskip hup (by omega), hname]
    cases hl : entries.lookup name with
    | none => rfl
    | some tree =>
      cases tree with
      | file content => rfl
      | _ => cases hfile _ hl

end Disk
end FlatConfig
