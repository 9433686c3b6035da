import FlatConfig.Proofs.Directories
import FlatConfig.Proofs.Discovery
import FlatConfig.Starter

set_option autoImplicit false

namespace FlatConfig

namespace Source

theorem fileNames_eq : fileNames = [Starter.fileName, "usagi.config.yml", "usagi.config.json"] := by
  decide +kernel

theorem isFile_of_nearest {disk : Disk} {start path : String} (h : Nearest disk start path) :
    disk.isFile path = true := by
  induction h with
  | here h =>
    obtain ⟨_, _, _, _, _, hfile, _⟩ := h
    exact hfile
  | above _ _ _ ih => exact ih

theorem isDirectory_of_isFile {disk : Disk} {directory path : String} (hne : directory ≠ "")
    (hhere : path ∈ fileNames.map (Path.join directory)) (hfile : disk.isFile path = true) :
    disk.isDirectory directory = true := by
  obtain ⟨name, hname, rfl⟩ := List.mem_map.mp hhere
  have hplain : ∀ name ∈ fileNames,
      '/' ∉ name.toList ∧ ¬ (name = "" ∨ name = ".") ∧ name ≠ ".." := by
    rw [fileNames_eq]
    decide +kernel
  obtain ⟨hslash, hskip, hup⟩ := hplain name hname
  exact Disk.isDirectory_of_isFile_join hne hslash hskip hup hfile

theorem run_find?_starter {disk : Disk} {directory : String}
    (h : disk.isFile (Path.join directory Starter.fileName) = true) :
    (find? directory : StateM Disk (Option String)).run disk =
      (some (Path.join directory Starter.fileName), disk) :=
  run_find?_eq_some_iff.mpr (.here ⟨[], _, _, fileNames_eq, rfl, h, by simp⟩)

end Source

namespace Starter

theorem run_create {disk : Disk} {directory : String}
    (hd : disk.makeDirectories directory = (true, disk)) :
    (create directory false : StateM Disk (Except Failure String)).run disk =
      if disk.isPresent (Path.join directory fileName) then
        (.error (.alreadyExists (Path.join directory fileName)), disk)
      else
        match disk.write? (Path.join directory fileName) text.toUTF8 with
        | some changed => (.ok (Path.join directory fileName), changed)
        | none => (.error (.write (Path.join directory fileName)), disk) := by
  have hp : (Host.isPresent (Path.join directory fileName) : StateM Disk Bool).run disk =
      (disk.isPresent (Path.join directory fileName), disk) := rfl
  have hm : (Host.makeDirectories directory : StateM Disk Bool).run disk = (true, disk) := hd
  have hwrite := Disk.run_write disk (Path.join directory fileName) text
  rw [create, Disk.run_bind, hp]
  cases disk.isPresent (Path.join directory fileName) with
  | true => rfl
  | false =>
    cases hw : disk.write? (Path.join directory fileName) text.toUTF8 with
    | none | some changed =>
      rw [hw] at hwrite
      simp only [Bool.not_false, Bool.and_false, Bool.false_eq_true, if_false, Disk.run_bind, hm,
        Bool.not_true, hwrite]
      rfl

/-- The starter that is written is the source of its directory from now on. -/
theorem run_find?_of_write? {disk changed : Disk} {directory : String}
    (h : disk.write? (Path.join directory fileName) text.toUTF8 = some changed) :
    (Source.find? directory : StateM Disk (Option String)).run changed =
      (some (Path.join directory fileName), changed) :=
  Source.run_find?_starter (Disk.isFile_iff.mpr ⟨_, Disk.content?_of_write? h⟩)

/-- Beside a source nothing keeps the starter from being written but a file of its own name. -/
theorem run_create_of_isFile {disk : Disk} {directory path : String}
    (hhere : path ∈ Source.fileNames.map (Path.join directory)) (hfile : disk.isFile path = true) :
    (create directory false : StateM Disk (Except Failure String)).run disk =
      if disk.isPresent (Path.join directory fileName) then
        (.error (.alreadyExists (Path.join directory fileName)), disk)
      else
        match disk.write? (Path.join directory fileName) text.toUTF8 with
        | some changed => (.ok (Path.join directory fileName), changed)
        | none => (.error (.write (Path.join directory fileName)), disk) := by
  apply run_create
  by_cases hne : directory = ""
  · subst hne
    rfl
  · exact Disk.makeDirectories_of_isDirectory (Source.isDirectory_of_isFile hne hhere hfile)

def german : Disk :=
  ⟨.directory [("usagi.config.yml", .file "language: de-DE\n".toUTF8)], []⟩

theorem locate_german {name : String} (h : name ∈ Source.fileNames) :
    german.locate true (Path.join "." name) =
      .ok (if name = "usagi.config.yml" then .entry [name] else .vacant [name]) := by
  have hnames : ∀ name ∈ Source.fileNames, Disk.NamesInRoot (Path.join "." name) name := by
    decide +kernel
  rw [german, Disk.locate_inRoot (hnames name h) (by simp [FileTree.isFile, lookup_cons_eq])]
  by_cases hyml : name = "usagi.config.yml" <;> simp [lookup_cons_eq, hyml]

theorem content?_german :
    german.content? (Path.join "." "usagi.config.yml") = some "language: de-DE\n".toUTF8 :=
  Disk.content?_eq_some_iff.mpr ⟨_, locate_german (by decide +kernel), rfl⟩

theorem entry?_german : german.entry? (Path.join "." fileName) = none := by
  rw [Disk.entry?, Disk.place?, locate_german (by decide +kernel), if_neg (by decide +kernel)]
  rfl

theorem find?_german : (Source.find? "." : StateM Disk (Option String)).run german =
    (some (Path.join "." "usagi.config.yml"), german) := by
  refine Source.run_find?_eq_some_iff.mpr
    (.here ⟨[fileName], _, ["usagi.config.json"], Source.fileNames_eq, rfl, ?_, ?_⟩)
  · exact Disk.isFile_iff.mpr ⟨_, content?_german⟩
  · intro other hother
    obtain rfl : other = fileName := by simpa using hother
    simp [Disk.isFile, entry?_german]

theorem write?_german :
    ∃ after, german.write? (Path.join "." fileName) text.toUTF8 = some after := by
  rw [Disk.write?, Disk.modify?, locate_german (by decide +kernel)]
  exact ⟨_, rfl⟩

theorem here_german : Path.join "." "usagi.config.yml" ∈ Source.fileNames.map (Path.join ".") := by
  decide +kernel

theorem run_create_german :
    ∃ after, (create "." false : StateM Disk (Except Failure String)).run german =
        (.ok (Path.join "." fileName), after) ∧
      (Source.find? "." : StateM Disk (Option String)).run after =
        (some (Path.join "." fileName), after) := by
  obtain ⟨after, hw⟩ := write?_german
  refine ⟨after, ?_, run_find?_of_write? hw⟩
  rw [run_create_of_isFile here_german (Disk.isFile_iff.mpr ⟨_, content?_german⟩),
    Disk.isPresent, entry?_german, hw]
  rfl

/-- Without force, a source in the directory keeps its content. It is still found unless the starter
has been written, and that is so just when nothing is at the starter's path and the disk takes it
there: beside a source of another name, and then the starter is found instead. -/
theorem create_beside {disk : Disk} {directory path : String}
    (hfound : (Source.find? directory : StateM Disk (Option String)).run disk = (some path, disk))
    (hhere : path ∈ Source.fileNames.map (Path.join directory)) :
    ∃ answer after,
      (create directory false : StateM Disk (Except Failure String)).run disk = (answer, after) ∧
      after.content? path = disk.content? path ∧
      ((∃ failure, answer = .error failure ∧ after = disk ∧
          (Source.find? directory : StateM Disk (Option String)).run after = (some path, after) ∧
          (failure = .alreadyExists (Path.join directory fileName) ∧
              disk.isPresent (Path.join directory fileName) = true ∨
            failure = .write (Path.join directory fileName) ∧
              path ≠ Path.join directory fileName ∧
              disk.write? (Path.join directory fileName) text.toUTF8 = none)) ∨
        path ≠ Path.join directory fileName ∧
          disk.isPresent (Path.join directory fileName) = false ∧
          answer = .ok (Path.join directory fileName) ∧
          after.content? (Path.join directory fileName) = some text.toUTF8 ∧
          (Source.find? directory : StateM Disk (Option String)).run after =
            (some (Path.join directory fileName), after)) := by
  have hfile := Source.isFile_of_nearest (Source.run_find?_eq_some_iff.mp hfound)
  obtain ⟨content, hcontent⟩ := Disk.isFile_iff.mp hfile
  rw [run_create_of_isFile hhere hfile]
  cases hp : disk.isPresent (Path.join directory fileName) with
  | true => exact ⟨_, _, rfl, rfl, .inl ⟨_, rfl, rfl, hfound, .inl ⟨rfl, rfl⟩⟩⟩
  | false =>
    have hne : path ≠ Path.join directory fileName := by
      rintro rfl
      rw [Disk.isPresent_of_content? hcontent] at hp
      cases hp
    cases hw : disk.write? (Path.join directory fileName) text.toUTF8 with
    | none => exact ⟨_, _, rfl, rfl, .inl ⟨_, rfl, rfl, hfound, .inr ⟨rfl, hne, rfl⟩⟩⟩
    | some changed =>
      refine ⟨_, changed, rfl, ?_, .inr ⟨hne, rfl, rfl, Disk.content?_of_write? hw, ?_⟩⟩
      · rw [hcontent, Disk.content?_of_write?_absent hp hw hcontent]
      · exact run_find?_of_write? hw

/-- The starter takes the place of `usagi.config.yml`, which is left as it was. -/
theorem create_beside_german :
    ∃ after, (create "." false : StateM Disk (Except Failure String)).run german =
        (.ok (Path.join "." fileName), after) ∧
      after.content? (Path.join "." "usagi.config.yml") = some "language: de-DE\n".toUTF8 := by
  obtain ⟨after, hrun, -⟩ := run_create_german
  obtain ⟨answer, same, hsame, hcontent, -⟩ := create_beside find?_german here_german
  obtain ⟨-, rfl⟩ := Prod.mk.inj (hrun.symm.trans hsame)
  exact ⟨after, hrun, hcontent.trans content?_german⟩

/-- A source in the directory need not be found any more. -/
theorem create_can_shadow :
    ¬ ∀ (disk : Disk) (directory path : String),
      (Source.find? directory : StateM Disk (Option String)).run disk = (some path, disk) →
      path ∈ Source.fileNames.map (Path.join directory) →
      let after := ((create directory false : StateM Disk (Except Failure String)).run disk).2
      ((Source.find? directory : StateM Disk (Option String)).run after).1 = some path ∧
        after.content? path = disk.content? path := by
  intro h
  obtain ⟨after, hrun, hfind⟩ := run_create_german
  obtain ⟨hsame, -⟩ := h german "." _ find?_german here_german
  rw [hrun] at hsame
  simp only [hfind, Option.some.injEq] at hsame
  exact absurd hsame (by decide +kernel)

end Starter
end FlatConfig
