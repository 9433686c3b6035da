import FlatConfig.Proofs.Resolve
import FlatConfig.Proofs.Runs

set_option autoImplicit false

namespace FlatConfig.Program

def resolved (env : Environment) (config : Option String) (disk : Disk) :
    Except Error Fragment := do
  let loaded ← (asked env config disk).loaded disk
  (loaded.item.resolve env).value

section

variable {logger : Logger (StateM Disk)} {disk : Disk} {env : Environment}
  {config : Option String}

theorem settles_of_error (hq : logger.IsQuiet) {e : Error}
    (h : resolved env config disk = .error e) (message : String)
    (next : Fragment → Run (StateM Disk) Unit) :
    ∃ failure, Settles logger.output disk
      (load logger env config >>= fun loaded => resolve logger env loaded message >>= next)
      (.error failure) := by
  have hload := settles_load hq env config disk
  rcases bind_eq_error.mp h with h | ⟨loaded, hl, h⟩
  · rw [h] at hload
    exact ⟨_, hload.bind_error _⟩
  · rw [hl] at hload
    have hresolve := settles_resolve hq env loaded message disk
    rw [h] at hresolve
    exact ⟨_, hload.bind (hresolve.bind_error _)⟩

theorem exec_of_ok (hq : logger.IsQuiet) {result : Fragment}
    (h : resolved env config disk = .ok result) (message : String)
    (next : Fragment → Run (StateM Disk) Unit) (p : Printed) :
    ∃ p' text,
      exec (load logger env config >>= fun loaded => resolve logger env loaded message >>= next)
        p disk = exec (next result) p' disk ∧
      LogText logger.output text ∧ p'.out = p.out ++ text := by
  obtain ⟨loaded, hl, h⟩ := bind_eq_ok.mp h
  have hload := settles_load hq env config disk
  have hresolve := settles_resolve hq env loaded message disk
  rw [hl] at hload
  rw [h] at hresolve
  have hboth : Settles logger.output disk
      (load logger env config >>= fun loaded => resolve logger env loaded message)
      (.ok result) := hload.bind hresolve
  obtain ⟨p', text, hexec, htext, hout⟩ := hboth.exec_bind next p
  exact ⟨p', text, by rw [← hexec, bind_assoc], htext, hout⟩

theorem generate_error (hq : logger.IsQuiet) {e : Error}
    (h : resolved env config disk = .error e) (output : Option String) (stdout : Bool) :
    ∃ failure, Settles logger.output disk (generate logger env config output stdout)
      (.error failure) :=
  settles_of_error hq h _ _

theorem exec_generate_stdout (hq : logger.IsQuiet) {result : Fragment}
    (h : resolved env config disk = .ok result) (output : Option String) (p : Printed) :
    ∃ p' text, exec (generate logger env config output true) p disk = ((.ok (), p'), disk) ∧
      LogText logger.output text ∧ p'.out = p.out ++ text ++ result.toYaml := by
  obtain ⟨p', text, hexec, htext, hout⟩ := exec_of_ok hq h _
    (fun resolved => print resolved.toYaml) p
  exact ⟨_, text, hexec, htext, by rw [← hout]⟩

def writeDocument (logger : Logger (StateM Disk)) (path text : String) :
    Run (StateM Disk) Unit := do
  if !(← onHost (Host.write path text)) then
    fail (.refused ("Failed to write " ++ path))
  logger.report (.wroteConfiguration path)
  print ("Generated " ++ path ++ "\n")

theorem exec_writeDocument (hq : logger.IsQuiet) (path text : String) (p : Printed)
    (disk : Disk) :
    ∃ p', exec (writeDocument logger path text) p disk =
      match disk.write? path text.toUTF8 with
      | some changed => ((.ok (), p'), changed)
      | none => ((.error (.refused ("Failed to write " ++ path)), p'), disk) := by
  have hwrite := Disk.run_write disk path text
  cases hw : disk.write? path text.toUTF8 with
  | none =>
    rw [hw] at hwrite
    refine ⟨p, ?_⟩
    simp only [writeDocument, exec_bind, exec_onHost, hwrite]
    rfl
  | some changed =>
    rw [hw] at hwrite
    have hreport := settles_report hq (.wroteConfiguration path) changed
    obtain ⟨p', _, hexec, -, -⟩ :=
      hreport.exec_bind (fun _ => print ("Generated " ++ path ++ "\n")) p
    refine ⟨{ p' with out := p'.out ++ ("Generated " ++ path ++ "\n") }, ?_⟩
    rw [writeDocument, exec_bind, exec_onHost, hwrite]
    exact hexec

theorem exec_generate_file (hq : logger.IsQuiet) {result : Fragment}
    (h : resolved env config disk = .ok result) (output : Option String) (p : Printed) :
    let path := CommandLine.outputPath output (env.lookup CommandLine.outputVariable)
    ∃ p', exec (generate logger env config output false) p disk =
      match disk.write? path result.toYaml.toUTF8 with
      | some changed => ((.ok (), p'), changed)
      | none => ((.error (.refused ("Failed to write " ++ path)), p'), disk) := by
  intro path
  obtain ⟨p', _, hexec, -, -⟩ := exec_of_ok hq h "Failed to resolve configuration from "
    (fun resolved => writeDocument logger path resolved.toYaml) p
  obtain ⟨last, hwrite⟩ := exec_writeDocument hq path result.toYaml p' disk
  exact ⟨last, hexec.trans hwrite⟩

theorem validate_eq :
    validate logger env config =
      (load logger env config >>= fun loaded =>
        resolve logger env loaded "Invalid configuration in " >>= fun _ =>
          print "Configuration is valid\n") := by
  simp only [validate, discard, Functor.discard, map_const, Function.comp_apply,
    Function.const_apply, map_eq_pure_bind, bind_assoc, pure_bind]

theorem exec_validate (hq : logger.IsQuiet) {result : Fragment}
    (h : resolved env config disk = .ok result) (p : Printed) :
    ∃ p', exec (validate logger env config) p disk = ((.ok (), p'), disk) := by
  obtain ⟨p', _, hexec, -, -⟩ := exec_of_ok hq h "Invalid configuration in "
    (fun _ => print "Configuration is valid\n") p
  exact ⟨_, by rw [validate_eq, hexec, exec_print]⟩

theorem validate_error (hq : logger.IsQuiet) {e : Error}
    (h : resolved env config disk = .error e) :
    ∃ failure, Settles logger.output disk (validate logger env config) (.error failure) := by
  rw [validate_eq]
  exact settles_of_error hq h _ _

end

/-- Where the document goes: to the path among the arguments, else to the one in the environment
unless it is empty, else to `.coderabbit.yaml`. -/
inductive OutputAt (env : Environment) : Option String → String → Prop where
  | given (path : String) : OutputAt env (some path) path
  | environment {path : String} (h : env.lookup "USAGI_OUTPUT" = some path) (hne : path ≠ "") :
      OutputAt env none path
  | standard (h : ∀ path, env.lookup "USAGI_OUTPUT" = some path → path = "") :
      OutputAt env none ".coderabbit.yaml"

theorem outputAt_outputPath (env : Environment) (output : Option String) :
    OutputAt env output
      (CommandLine.outputPath output (env.lookup CommandLine.outputVariable)) := by
  cases output with
  | some path => exact .given path
  | none =>
    cases h : env.lookup CommandLine.outputVariable with
    | none =>
      refine .standard fun path hp => ?_
      rw [show env.lookup "USAGI_OUTPUT" = none from h] at hp
      cases hp
    | some path =>
      by_cases hne : path = ""
      · subst hne
        refine .standard fun path hp => ?_
        exact (Option.some.inj (h.symm.trans hp)).symm
      · have hpath : CommandLine.outputPath none (some path) = path := by
          simp [CommandLine.outputPath, Option.filter, hne]
        rw [hpath]
        exact .environment h hne

section

variable {call : Call} (clock : Clock) {env : Environment} {disk : Disk}

theorem run_of_failure {failure : Failure}
    (h : Settles (call.output env) disk (perform (call.logger clock env) env call.invocation)
      (.error failure)) :
    ∃ outcome, call.run clock env disk = (outcome, disk) ∧ outcome.code = 1 := by
  obtain ⟨p, -, hrun⟩ := call.run_eq clock env disk
  obtain ⟨p', _, hexec, -⟩ := h p
  exact ⟨_, by rw [hrun, hexec, ended], rfl⟩

theorem perform_generate {output : Option String} {stdout : Bool}
    (h : call.invocation.command = .generate output stdout) (logger : Logger (StateM Disk)) :
    perform logger env call.invocation =
      generate logger env call.invocation.config output stdout := by
  rw [perform, h]

theorem perform_validate (h : call.invocation.command = .validate)
    (logger : Logger (StateM Disk)) :
    perform logger env call.invocation = validate logger env call.invocation.config := by
  rw [perform, h]

theorem run_generate_error {output : Option String} {stdout : Bool} {e : Error}
    (hc : call.invocation.command = .generate output stdout)
    (h : resolved env call.invocation.config disk = .error e) :
    ∃ outcome, call.run clock env disk = (outcome, disk) ∧ outcome.code = 1 := by
  have hq := call.isQuiet_logger clock env
  obtain ⟨failure, hsettles⟩ := generate_error hq h output stdout
  rw [← perform_generate hc] at hsettles
  exact run_of_failure clock hsettles

theorem run_generate_stdout {output : Option String} {result : Fragment}
    (hc : call.invocation.command = .generate output true)
    (h : resolved env call.invocation.config disk = .ok result) :
    ∃ outcome front, call.run clock env disk = (outcome, disk) ∧ outcome.code = 0 ∧
      LogText (call.output env) front ∧ outcome.printed.out = front ++ result.toYaml := by
  have hq := call.isQuiet_logger clock env
  obtain ⟨p, hfront, hrun⟩ := call.run_eq clock env disk
  obtain ⟨p', text, hexec, htext, hout⟩ := exec_generate_stdout hq h output p
  rw [perform_generate hc, hexec, ended] at hrun
  exact ⟨_, p.out ++ text, hrun, rfl, hfront.append htext, hout⟩

theorem run_generate_file {output : Option String} {result : Fragment}
    (hc : call.invocation.command = .generate output false)
    (h : resolved env call.invocation.config disk = .ok result) :
    ∃ outcome after path, call.run clock env disk = (outcome, after) ∧
      OutputAt env output path ∧
        (outcome.code = 0 ∧ (∃ place, disk.Wrote path result.toYaml.toUTF8 place after) ∨
          outcome.code = 1 ∧ after = disk ∧ disk.write? path result.toYaml.toUTF8 = none) := by
  have hq := call.isQuiet_logger clock env
  obtain ⟨p, -, hrun⟩ := call.run_eq clock env disk
  obtain ⟨p', hexec⟩ := exec_generate_file hq h output p
  have hpath := outputAt_outputPath env output
  rw [perform_generate hc, hexec] at hrun
  generalize CommandLine.outputPath output (env.lookup CommandLine.outputVariable) = path
    at hrun hpath
  cases hw : disk.write? path result.toYaml.toUTF8 with
  | none =>
    rw [hw] at hrun
    exact ⟨_, _, path, hrun, hpath, .inr ⟨rfl, rfl, hw⟩⟩
  | some changed =>
    rw [hw] at hrun
    exact ⟨_, _, path, hrun, hpath, .inl ⟨rfl, Disk.wrote_of_write? hw⟩⟩

theorem run_validate (hc : call.invocation.command = .validate) :
    ∃ outcome, call.run clock env disk = (outcome, disk) ∧
      (outcome.code = 0 ↔ ∃ result, resolved env call.invocation.config disk = .ok result) := by
  have hq := call.isQuiet_logger clock env
  cases h : resolved env call.invocation.config disk with
  | error e =>
    obtain ⟨failure, hsettles⟩ := validate_error hq h
    rw [← perform_validate hc] at hsettles
    obtain ⟨outcome, hrun, hcode⟩ := run_of_failure clock hsettles
    exact ⟨outcome, hrun, by simp [hcode]⟩
  | ok result =>
    obtain ⟨p, -, hrun⟩ := call.run_eq clock env disk
    obtain ⟨p', hexec⟩ := exec_validate hq h p
    rw [perform_validate hc, hexec, ended] at hrun
    exact ⟨_, hrun, by simp⟩

end

def english : Disk :=
  ⟨.directory [("usagi.config.yaml", .file "language: en-US\n".toUTF8)], []⟩

def still : Clock := ⟨pure "0s", fun _ => rfl⟩

def writing : Call where
  arguments := ["--config", "usagi.config.yaml", "generate"]
  invocation := ⟨some "usagi.config.yaml", false, "2", .generate none false⟩
  parses := by decide +kernel
  quiet := by
    intro path h
    cases h

theorem content?_english :
    english.content? "usagi.config.yaml" = some "language: en-US\n".toUTF8 := by
  have hname : Disk.NamesInRoot "usagi.config.yaml" "usagi.config.yaml" := by decide +kernel
  exact Disk.content?_eq_some_iff.mpr
    ⟨["usagi.config.yaml"], Disk.locate_inRoot hname (by simp [FileTree.isFile]), rfl⟩

theorem resolved_english :
    resolved [] (some "usagi.config.yaml") english = .ok [("language", .string "en-US")] := by
  have hread : Yaml.read? "language: en-US\n" =
      some (.mapping [("language", .string "en-US")]) := by
    decide +kernel
  have hitem : (Source.attemptAt english "usagi.config.yaml").value =
      .ok (.fragment [("language", .string "en-US")]) := by
    rw [Source.attemptAt, if_pos (Disk.isPresent_of_content? content?_english),
      Disk.read?_of_content? content?_english]
    exact Source.value_read_yaml (by decide +kernel) hread
  have hload : (asked [] (some "usagi.config.yaml") english).loaded english =
      .ok ⟨asked [] (some "usagi.config.yaml") english, "usagi.config.yaml",
        .fragment [("language", .string "en-US")]⟩ := by
    have hchoose : (asked [] (some "usagi.config.yaml") english).Chooses english
        "usagi.config.yaml" := .explicit _ _
    rw [Search.loaded_of_chooses hchoose, hitem]
    rfl
  rw [resolved, hload]
  rfl

theorem write?_english (content : ByteArray) :
    ∃ after, english.write? ".coderabbit.yaml" content = some after := by
  have hname : Disk.NamesInRoot ".coderabbit.yaml" ".coderabbit.yaml" := by decide +kernel
  rw [english, Disk.write?, Disk.modify?, Disk.locate_inRoot hname (by simp [lookup_cons_eq])]
  exact ⟨_, rfl⟩

/-- Generating changes nothing unless the configuration can be loaded and resolved and its document
is to go to a file, which is then the only one that changes. Validating never changes anything, and
says whether generating to standard output would succeed. -/
theorem run_generates (call : Call) (clock : Clock) (env : Environment) (disk : Disk) :
    (∀ output stdout, call.invocation.command = .generate output stdout →
      (∀ e, resolved env call.invocation.config disk = .error e →
        ∃ outcome, call.run clock env disk = (outcome, disk) ∧ outcome.code = 1) ∧
      ∀ result, resolved env call.invocation.config disk = .ok result →
        (stdout = true →
          ∃ outcome front, call.run clock env disk = (outcome, disk) ∧ outcome.code = 0 ∧
            LogText (call.output env) front ∧ outcome.printed.out = front ++ result.toYaml) ∧
        (stdout = false →
          ∃ outcome after path, call.run clock env disk = (outcome, after) ∧
            OutputAt env output path ∧
              (outcome.code = 0 ∧ (∃ place, disk.Wrote path result.toYaml.toUTF8 place after) ∨
                outcome.code = 1 ∧ after = disk ∧
                  disk.write? path result.toYaml.toUTF8 = none))) ∧
    (call.invocation.command = .validate →
      ∃ outcome, call.run clock env disk = (outcome, disk) ∧
        ∀ (other : Clock) (again : Call) (output : Option String),
          again.invocation.command = .generate output true →
          again.invocation.config = call.invocation.config →
          (outcome.code = 0 ↔ (again.run other env disk).1.code = 0)) := by
  refine ⟨fun output stdout hc => ⟨fun e h => run_generate_error clock hc h, fun result h => ?_⟩,
    fun hc => ?_⟩
  · refine ⟨?_, ?_⟩
    · rintro rfl
      exact run_generate_stdout clock hc h
    · rintro rfl
      exact run_generate_file clock hc h
  · obtain ⟨outcome, hrun, hcode⟩ := run_validate clock hc
    refine ⟨outcome, hrun, fun other again output hagain hconfig => ?_⟩
    rw [hcode, ← hconfig]
    cases h : resolved env again.invocation.config disk with
    | error e =>
      obtain ⟨generated, hrun, hcode⟩ := run_generate_error other hagain h
      simp [hrun, hcode]
    | ok result =>
      obtain ⟨generated, _, hrun, hcode, -⟩ := run_generate_stdout other hagain h
      simp [hrun, hcode]

theorem run_writing :
    ∃ outcome after place, writing.run still [] english = (outcome, after) ∧ outcome.code = 0 ∧
      english.Wrote ".coderabbit.yaml" "language: en-US\n".toUTF8 place after := by
  have hyaml : Fragment.toYaml [("language", .string "en-US")] = "language: en-US\n" := by
    decide +kernel
  obtain ⟨outcome, after, path, hrun, hpath, hend⟩ :=
    ((run_generates writing still [] english).1 none false rfl).2 _ resolved_english |>.2 rfl
  obtain rfl : path = ".coderabbit.yaml" := by
    cases hpath with
    | environment h => cases h
    | standard => rfl
  rw [hyaml] at hend
  obtain ⟨changed, hw⟩ := write?_english "language: en-US\n".toUTF8
  rcases hend with ⟨hcode, place, hwrote⟩ | ⟨-, -, hnone⟩
  · exact ⟨outcome, after, place, hrun, hcode, hwrote⟩
  · rw [hw] at hnone
    cases hnone

end FlatConfig.Program
