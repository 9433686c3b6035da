import FlatConfig.Proofs.Attempt
import FlatConfig.Proofs.Path
import FlatConfig.Source

set_option autoImplicit false

namespace FlatConfig

namespace Disk

variable {α β : Type}

theorem run_pure (a : α) (disk : Disk) : (pure a : StateM Disk α).run disk = (a, disk) := rfl

theorem run_bind (x : StateM Disk α) (f : α → StateM Disk β) (disk : Disk) :
    (x >>= f).run disk = (f (x.run disk).1).run (x.run disk).2 := rfl

end Disk

namespace Source

def IsFirstIn (disk : Disk) (directory path : String) : Prop :=
  ∃ before name after, fileNames = before ++ name :: after ∧ path = Path.join directory name ∧
    disk.isFile path = true ∧ ∀ other ∈ before, disk.isFile (Path.join directory other) = false

def HasNone (disk : Disk) (directory : String) : Prop :=
  ∀ name ∈ fileNames, disk.isFile (Path.join directory name) = false

/-- A directory that has a source decides, and otherwise its parent. -/
inductive Nearest (disk : Disk) : String → String → Prop where
  | here {directory path : String} (h : IsFirstIn disk directory path) : Nearest disk directory path
  | above {directory parent path : String} (hnone : HasNone disk directory)
      (hparent : Path.parent? directory = some parent) (h : Nearest disk parent path) :
      Nearest disk directory path

/-- Neither the directory nor one above it has a source. -/
inductive Sourceless (disk : Disk) : String → Prop where
  | top {directory : String} (hnone : HasNone disk directory)
      (hparent : Path.parent? directory = none) : Sourceless disk directory
  | above {directory parent : String} (hnone : HasNone disk directory)
      (hparent : Path.parent? directory = some parent) (h : Sourceless disk parent) :
      Sourceless disk directory

def firstIn? (disk : Disk) (directory : String) : Option String :=
  (fileNames.map (Path.join directory)).find? disk.isFile

theorem firstIn?_eq_some_iff {disk : Disk} {directory path : String} :
    firstIn? disk directory = some path ↔ IsFirstIn disk directory path := by
  rw [firstIn?, List.find?_eq_some_iff_append]
  constructor
  · rintro ⟨hfile, before, after, hsplit, hbefore⟩
    obtain ⟨before, after, hnames, rfl, hafter⟩ := List.map_eq_append_iff.mp hsplit
    obtain ⟨name, after, rfl, rfl, rfl⟩ := List.map_eq_cons_iff.mp hafter
    exact ⟨before, name, after, hnames, rfl, hfile, by simpa using hbefore⟩
  · rintro ⟨before, name, after, hnames, rfl, hfile, hbefore⟩
    exact ⟨hfile, before.map (Path.join directory), after.map (Path.join directory),
      by simp [hnames], by simpa using hbefore⟩

theorem firstIn?_eq_none_iff {disk : Disk} {directory : String} :
    firstIn? disk directory = none ↔ HasNone disk directory := by
  simp [firstIn?, HasNone]

theorem run_findM? (disk : Disk) (paths : List String) :
    (paths.findM? Host.isFile : StateM Disk (Option String)).run disk =
      (paths.find? disk.isFile, disk) := by
  induction paths with
  | nil => rfl
  | cons path rest ih =>
    rw [List.find?_cons]
    cases h : disk.isFile path with
    | true => simp [List.findM?, Host.isFile, h]; rfl
    | false => simpa [List.findM?, Host.isFile, h] using ih

theorem run_find? (disk : Disk) (start : String) :
    (find? start : StateM Disk (Option String)).run disk =
      ((Path.ancestors start).findSome? (firstIn? disk), disk) := by
  rw [find?, run_findM?, candidates, List.find?_flatMap]
  rfl

/-- Looking upwards is looking in a directory and then upwards from its parent. -/
theorem findSome?_ancestors (disk : Disk) (start : String) :
    (Path.ancestors start).findSome? (firstIn? disk) =
      (firstIn? disk start).or
        ((Path.parent? start).bind fun above =>
          (Path.ancestors above).findSome? (firstIn? disk)) := by
  rw [Path.ancestors, Path.parents_eq, List.findSome?_cons]
  cases firstIn? disk start with
  | some path => rfl
  | none => cases Path.parent? start <;> rfl

theorem nearest_of_findSome? {disk : Disk} (start path : String) :
    (Path.ancestors start).findSome? (firstIn? disk) = some path → Nearest disk start path := by
  induction start using Path.induction_parent with
  | h directory ih =>
    intro h
    rw [findSome?_ancestors] at h
    cases hfirst : firstIn? disk directory with
    | some found =>
      rw [hfirst, Option.some_or] at h
      exact .here (firstIn?_eq_some_iff.mp (hfirst.trans h))
    | none =>
      rw [hfirst, Option.none_or, Option.bind_eq_some_iff] at h
      obtain ⟨above, habove, h⟩ := h
      exact .above (firstIn?_eq_none_iff.mp hfirst) habove (ih above habove h)

theorem sourceless_of_findSome? {disk : Disk} (start : String) :
    (Path.ancestors start).findSome? (firstIn? disk) = none → Sourceless disk start := by
  induction start using Path.induction_parent with
  | h directory ih =>
    intro h
    rw [findSome?_ancestors, Option.or_eq_none_iff] at h
    obtain ⟨hfirst, h⟩ := h
    have hnone := firstIn?_eq_none_iff.mp hfirst
    cases habove : Path.parent? directory with
    | none => exact .top hnone habove
    | some above => exact .above hnone habove (ih above habove (by simpa [habove] using h))

theorem findSome?_of_nearest {disk : Disk} {start path : String} (h : Nearest disk start path) :
    (Path.ancestors start).findSome? (firstIn? disk) = some path := by
  induction h with
  | here h => rw [findSome?_ancestors, firstIn?_eq_some_iff.mpr h, Option.some_or]
  | above hnone hparent _ ih =>
    rw [findSome?_ancestors, firstIn?_eq_none_iff.mpr hnone, Option.none_or, hparent,
      Option.bind_some, ih]

/-- Looking for a source finds the nearest one, if there is one. -/
theorem run_find?_eq_some_iff {disk : Disk} {start path : String} :
    (find? start : StateM Disk (Option String)).run disk = (some path, disk) ↔
      Nearest disk start path := by
  rw [run_find?, Prod.mk.injEq, and_iff_left rfl]
  exact ⟨nearest_of_findSome? start path, findSome?_of_nearest⟩

/-- The file name ends in a point and one of the words, in capitals or not. -/
def HasExtension (path : String) (words : List String) : Prop :=
  ∃ extension, Path.extension? path = some extension ∧
    String.ofList (extension.toList.map Char.toLower) ∈ words

theorem ofPath?_eq_some_iff {path : String} {format : Format} {words : List String}
    (h : ∀ extension, Format.ofExtension? extension = some format ↔
      String.ofList (extension.toList.map Char.toLower) ∈ words) :
    Format.ofPath? path = some format ↔ HasExtension path words := by
  rw [Format.ofPath?, Option.bind_eq_some_iff]
  exact exists_congr fun extension => and_congr_right fun _ => h extension

theorem ofPath?_eq_yaml_iff {path : String} :
    Format.ofPath? path = some .yaml ↔ HasExtension path ["yaml", "yml"] := by
  refine ofPath?_eq_some_iff fun extension => ?_
  rw [Format.ofExtension?]
  split <;> simp_all

theorem ofPath?_eq_json_iff {path : String} :
    Format.ofPath? path = some .json ↔ HasExtension path ["json"] := by
  refine ofPath?_eq_some_iff fun extension => ?_
  rw [Format.ofExtension?]
  split <;> simp_all

theorem not_hasExtension_of_ofPath?_eq_none {path : String} (h : Format.ofPath? path = none) :
    ¬ HasExtension path ["yaml", "yml", "json"] := by
  intro hany
  obtain ⟨extension, hextension, hword⟩ := hany
  rw [Format.ofPath?, hextension, Option.bind_some, Format.ofExtension?] at h
  split at h <;> simp_all

/-- What is read from a file, or why nothing is: it is not there, it is no text, its name does not
tell a format, its text is no document of this format, or the document is rejected. -/
inductive Holds (disk : Disk) (path : String) : Except Error Item → Prop where
  | absent (h : disk.isPresent path = false) : Holds disk path (.error (.sourceNotFound path))
  | unreadable (h : disk.isPresent path = true) (hread : disk.read? path = none) :
      Holds disk path (.error .unreadable)
  | unsupported {text : String} (hread : disk.read? path = some text)
      (h : ¬ HasExtension path ["yaml", "yml", "json"]) :
      Holds disk path (.error (.unsupportedFormat path))
  | malformedYaml {text : String} (hread : disk.read? path = some text)
      (h : HasExtension path ["yaml", "yml"]) (hparse : Yaml.read? text = none) :
      Holds disk path (.error .malformedYaml)
  | malformedJson {text : String} (hread : disk.read? path = some text)
      (h : HasExtension path ["json"]) (hparse : Json.read? text = none) :
      Holds disk path (.error .malformedJson)
  | yaml {text : String} {v : Value} (hread : disk.read? path = some text)
      (h : HasExtension path ["yaml", "yml"]) (hparse : Yaml.read? text = some v) :
      Holds disk path (Item.ofValue v)
  | json {text : String} {v : Value} (hread : disk.read? path = some text)
      (h : HasExtension path ["json"]) (hparse : Json.read? text = some v) :
      Holds disk path (Item.ofValue v)

def attemptAt (disk : Disk) (path : String) : Attempt Item :=
  if disk.isPresent path then
    match disk.read? path with
    | some text => read path text
    | none => Attempt.fail .unreadable
  else Attempt.fail (.sourceNotFound path)

theorem run_load (disk : Disk) (path : String) :
    (load path : StateM Disk (Attempt Item)).run disk = (attemptAt disk path, disk) := by
  rw [attemptAt]
  cases hp : disk.isPresent path with
  | false => simp [load, Host.isPresent, hp]; rfl
  | true => cases hr : disk.read? path <;> simp [load, Host.isPresent, Host.read?, hp, hr] <;> rfl

theorem holds_read {disk : Disk} {path text : String} (hread : disk.read? path = some text) :
    Holds disk path (read path text).value := by
  rw [read]
  cases hformat : Format.ofPath? path with
  | none => exact .unsupported hread (not_hasExtension_of_ofPath?_eq_none hformat)
  | some format =>
    simp only [Attempt.value_bind, Attempt.value_ofExcept, Attempt.value_tell, ok_bind]
    cases format with
    | yaml =>
      have hextension := ofPath?_eq_yaml_iff.mp hformat
      cases hparse : Yaml.read? text with
      | none => simpa [parse, hparse] using Holds.malformedYaml hread hextension hparse
      | some v => simpa [parse, hparse] using Holds.yaml hread hextension hparse
    | json =>
      have hextension := ofPath?_eq_json_iff.mp hformat
      cases hparse : Json.read? text with
      | none => simpa [parse, hparse] using Holds.malformedJson hread hextension hparse
      | some v => simpa [parse, hparse] using Holds.json hread hextension hparse

theorem holds_attemptAt (disk : Disk) (path : String) :
    Holds disk path (attemptAt disk path).value := by
  rw [attemptAt]
  cases hpresent : disk.isPresent path with
  | false => exact .absent hpresent
  | true =>
    rw [if_pos rfl]
    cases hread : disk.read? path with
    | none => exact .unreadable hpresent hread
    | some text => exact holds_read hread

theorem attemptAt_congr {disk other : Disk} {path : String}
    (h : disk.entry? path = other.entry? path) : attemptAt disk path = attemptAt other path := by
  have hp : disk.isPresent path = other.isPresent path := by
    rw [Disk.isPresent, Disk.isPresent, h]
  have hr : disk.read? path = other.read? path := by
    rw [Disk.read?, Disk.read?, Disk.content?, Disk.content?, h]
  rw [attemptAt, attemptAt, hp, hr]

end Source

namespace Search

/-- The path that a search comes to: the one it is given, or else the nearest source. -/
inductive Chooses (disk : Disk) : Search → String → Prop where
  | explicit (path start : String) : Chooses disk ⟨some path, start⟩ path
  | nearest {start path : String} (h : Source.Nearest disk start path) :
      Chooses disk ⟨none, start⟩ path

def loaded (disk : Disk) (search : Search) : Except Error Loaded :=
  ((search.load : StateM Disk (Attempt Loaded)).run disk).1.value

theorem run_load_of_chooses {disk : Disk} {search : Search} {path : String}
    (h : search.Chooses disk path) :
    (search.load : StateM Disk (Attempt Loaded)).run disk =
      (do
        let item ← Source.attemptAt disk path
        Attempt.tell (.loadedSource path)
        return ⟨search, path, item⟩, disk) := by
  cases h with
  | explicit => simp only [load, Disk.run_bind, Disk.run_pure, Source.run_load]
  | nearest h =>
    simp only [load, Disk.run_bind, Disk.run_pure, Source.run_find?_eq_some_iff.mpr h,
      Source.run_load]

theorem run_load_of_sourceless {disk : Disk} {start : String}
    (h : (Source.find? start : StateM Disk (Option String)).run disk = (none, disk)) :
    ((⟨none, start⟩ : Search).load : StateM Disk (Attempt Loaded)).run disk =
      (Attempt.fail (.sourceNotFound start), disk) := by
  simp only [load, Disk.run_bind, Disk.run_pure, h]

theorem loaded_of_chooses {disk : Disk} {search : Search} {path : String}
    (h : search.Chooses disk path) :
    search.loaded disk = (⟨search, path, ·⟩) <$> (Source.attemptAt disk path).value := by
  rw [loaded, run_load_of_chooses h]
  simp only [Attempt.value_bind, Attempt.value_tell, ok_bind, Attempt.value_pure]
  cases (Source.attemptAt disk path).value <;> rfl

theorem chooses_explicit_iff {disk : Disk} {path start other : String} :
    (⟨some path, start⟩ : Search).Chooses disk other ↔ other = path := by
  constructor
  · rintro ⟨⟩
    rfl
  · rintro rfl
    exact .explicit _ _

theorem chooses_nearest_iff {disk : Disk} {start other : String} :
    (⟨none, start⟩ : Search).Chooses disk other ↔
      (Source.find? start : StateM Disk (Option String)).run disk = (some other, disk) := by
  rw [Source.run_find?_eq_some_iff]
  constructor
  · rintro ⟨⟩
    assumption
  · exact .nearest

/-- A search chooses one path, or there is no source to choose. -/
theorem chooses_or_sourceless (disk : Disk) (search : Search) :
    (∃ path, ∀ other, search.Chooses disk other ↔ other = path) ∨
      search.explicit = none ∧ Source.Sourceless disk search.start ∧
        (Source.find? search.start : StateM Disk (Option String)).run disk = (none, disk) := by
  obtain ⟨explicit, start⟩ := search
  cases explicit with
  | some path => exact .inl ⟨path, fun _ => chooses_explicit_iff⟩
  | none =>
    have hrun := Source.run_find? disk start
    cases hfound : (Path.ancestors start).findSome? (Source.firstIn? disk) with
    | none => exact .inr ⟨rfl, Source.sourceless_of_findSome? start hfound, hfound ▸ hrun⟩
    | some path =>
      refine .inl ⟨path, fun other => ?_⟩
      rw [chooses_nearest_iff, hrun, hfound, Prod.mk.injEq, and_iff_left rfl, Option.some.injEq,
        eq_comm]

theorem run_load_snd (disk : Disk) (search : Search) :
    ((search.load : StateM Disk (Attempt Loaded)).run disk).2 = disk := by
  rcases chooses_or_sourceless disk search with ⟨path, hpath⟩ | ⟨hexplicit, _, hfind⟩
  · rw [run_load_of_chooses ((hpath path).mpr rfl)]
  · obtain ⟨_, start⟩ := search
    obtain rfl := hexplicit
    rw [run_load_of_sourceless hfind]

/-- A search loads what is in the file that it chooses, and fails as this file makes it fail. The
rest of the disk and the place that looking starts from do not matter then. -/
theorem loaded_chosen (disk : Disk) (search : Search) :
    ((search.load : StateM Disk (Attempt Loaded)).run disk).2 = disk ∧
      ((∃ path outcome, (∀ other, search.Chooses disk other ↔ other = path) ∧
          Source.Holds disk path outcome ∧
          search.loaded disk = (⟨search, path, ·⟩) <$> outcome) ∨
        search.explicit = none ∧ Source.Sourceless disk search.start ∧
          search.loaded disk = .error (.sourceNotFound search.start) ∧
          (Error.sourceNotFound search.start).message? =
            some ("Configuration file not found: " ++ search.start)) ∧
      ∀ (other : Disk) (again : Search) (path : String), search.Chooses disk path →
        again.Chooses other path → disk.entry? path = other.entry? path →
        (fun l => (l.path, l.item)) <$> search.loaded disk =
          (fun l => (l.path, l.item)) <$> again.loaded other := by
  refine ⟨run_load_snd disk search, ?_, fun other again path hpath hagain hentry => ?_⟩
  · rcases chooses_or_sourceless disk search with ⟨path, hpath⟩ | ⟨hexplicit, hnone, hfind⟩
    · exact .inl ⟨path, _, hpath, Source.holds_attemptAt disk path,
        loaded_of_chooses ((hpath path).mpr rfl)⟩
    · obtain ⟨_, start⟩ := search
      obtain rfl := hexplicit
      refine .inr ⟨rfl, hnone, ?_, rfl⟩
      rw [loaded, run_load_of_sourceless hfind]
      rfl
  · rw [loaded_of_chooses hpath, loaded_of_chooses hagain, Source.attemptAt_congr hentry]
    cases (Source.attemptAt other path).value <;> rfl

end Search
end FlatConfig
