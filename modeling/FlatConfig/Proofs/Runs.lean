import FlatConfig.Program
import FlatConfig.Proofs.Discovery

/-!
Runs of the program on a disk that is kept as a value.

Reading a configuration leaves the disk as it is and prints nothing but log lines, unless these go
to a file: such actions settle (`Program.Settles`), and so does what is put together from them.
-/

set_option autoImplicit false

namespace FlatConfig.Program

variable {α β : Type}

def exec (action : Run (StateM Disk) α) (p : Printed) (disk : Disk) :
    (Except Failure α × Printed) × Disk :=
  (action.run.run p).run disk

theorem exec_pure (a : α) (p : Printed) (disk : Disk) :
    exec (pure a) p disk = ((.ok a, p), disk) := rfl

theorem exec_fail (failure : Failure) (p : Printed) (disk : Disk) :
    exec (fail failure : Run (StateM Disk) α) p disk = ((.error failure, p), disk) := rfl

theorem exec_print (text : String) (p : Printed) (disk : Disk) :
    exec (print text) p disk = ((.ok (), { p with out := p.out ++ text }), disk) := rfl

theorem exec_printError (text : String) (p : Printed) (disk : Disk) :
    exec (printError text) p disk = ((.ok (), { p with err := p.err ++ text }), disk) := rfl

theorem exec_onHost (action : StateM Disk α) (p : Printed) (disk : Disk) :
    exec (onHost action) p disk = ((.ok (action.run disk).1, p), (action.run disk).2) := rfl

theorem exec_bind (action : Run (StateM Disk) α) (next : α → Run (StateM Disk) β) (p : Printed)
    (disk : Disk) :
    exec (action >>= next) p disk =
      match exec action p disk with
      | ((.ok a, p'), disk') => exec (next a) p' disk'
      | ((.error failure, p'), disk') => ((.error failure, p'), disk') := by
  have hbind : exec (action >>= next) p disk =
      ((ExceptT.bindCont next (exec action p disk).1.1).run (exec action p disk).1.2).run
        (exec action p disk).2 := rfl
  rw [hbind]
  rcases exec action p disk with ⟨⟨a | a, p'⟩, disk'⟩ <;> rfl

/-- Lines of the log; there are some only when the log goes to standard output. -/
def LogText (output : Log.Output) (text : String) : Prop :=
  ∃ lines : List String, text = String.join lines ∧
    (∀ line ∈ lines, ∃ time event, line = Log.line output.colored time event) ∧
      (lines ≠ [] → output.sink = .stdout)

namespace LogText

variable {output : Log.Output}

theorem empty (output : Log.Output) : LogText output "" := ⟨[], rfl, by simp, by simp⟩

theorem line (h : output.sink = .stdout) (time : String) (event : Event) :
    LogText output (Log.line output.colored time event) :=
  ⟨[Log.line output.colored time event], by simp [String.join],
    fun _ hl => ⟨time, event, by simpa using hl⟩, fun _ => h⟩

theorem append {front back : String} (hf : LogText output front) (hb : LogText output back) :
    LogText output (front ++ back) := by
  obtain ⟨first, rfl, hfirst, hfs⟩ := hf
  obtain ⟨second, rfl, hsecond, hss⟩ := hb
  refine ⟨first ++ second, by rw [String.join_append], fun l hl => ?_, fun hne => ?_⟩
  · rcases List.mem_append.mp hl with h | h
    · exact hfirst l h
    · exact hsecond l h
  · by_cases h : first = []
    · exact hss (by simpa [h] using hne)
    · exact hfs h

end LogText

/-- Whatever has been printed before, the action comes to this result, leaves the disk as it is, and
prints nothing but log lines on standard output. -/
def Settles (output : Log.Output) (disk : Disk) (action : Run (StateM Disk) α)
    (result : Except Failure α) : Prop :=
  ∀ p, ∃ p' text, exec action p disk = ((result, p'), disk) ∧ LogText output text ∧
    p'.out = p.out ++ text

namespace Settles

variable {output : Log.Output} {disk : Disk} {action : Run (StateM Disk) α}
  {next : α → Run (StateM Disk) β}

theorem of_out {result : Except Failure α}
    (h : ∀ p, ∃ p', exec action p disk = ((result, p'), disk) ∧ p'.out = p.out) :
    Settles output disk action result := fun p => by
  obtain ⟨p', hexec, hout⟩ := h p
  exact ⟨p', "", hexec, .empty output, by simp [hout]⟩

theorem pure (a : α) : Settles output disk (pure a) (.ok a) :=
  of_out fun p => ⟨p, exec_pure a p disk, rfl⟩

theorem fail (failure : Failure) :
    Settles output disk (Program.fail failure : Run (StateM Disk) α) (.error failure) :=
  of_out fun p => ⟨p, exec_fail failure p disk, rfl⟩

theorem printError (text : String) : Settles output disk (Program.printError text) (.ok ()) :=
  of_out fun p => ⟨_, exec_printError text p disk, rfl⟩

theorem onHost {action : StateM Disk α} {a : α} (h : action.run disk = (a, disk)) :
    Settles output disk (Program.onHost action) (.ok a) :=
  of_out fun p => ⟨p, by rw [exec_onHost, h], rfl⟩

theorem exec_bind {a : α} (h : Settles output disk action (.ok a)) (next : α → Run (StateM Disk) β)
    (p : Printed) :
    ∃ p' text, exec (action >>= next) p disk = exec (next a) p' disk ∧ LogText output text ∧
      p'.out = p.out ++ text := by
  obtain ⟨p', text, hexec, htext, hout⟩ := h p
  exact ⟨p', text, by rw [Program.exec_bind, hexec], htext, hout⟩

theorem bind {a : α} {result : Except Failure β} (h : Settles output disk action (.ok a))
    (hn : Settles output disk (next a) result) : Settles output disk (action >>= next) result := by
  intro p
  obtain ⟨p₁, text₁, hexec₁, htext₁, hout₁⟩ := h.exec_bind next p
  obtain ⟨p₂, text₂, hexec₂, htext₂, hout₂⟩ := hn p₁
  refine ⟨p₂, text₁ ++ text₂, hexec₁.trans hexec₂, htext₁.append htext₂, ?_⟩
  rw [hout₂, hout₁, String.append_assoc]

theorem bind_error {failure : Failure} (h : Settles output disk action (.error failure))
    (next : α → Run (StateM Disk) β) : Settles output disk (action >>= next) (.error failure) := by
  intro p
  obtain ⟨p', text, hexec, htext, hout⟩ := h p
  exact ⟨p', text, by rw [Program.exec_bind, hexec], htext, hout⟩

theorem forM {items : List β} {visit : β → Run (StateM Disk) Unit}
    (h : ∀ item ∈ items, Settles output disk (visit item) (.ok ())) :
    Settles output disk (items.forM visit) (.ok ()) := by
  induction items with
  | nil => exact pure ()
  | cons item rest ih =>
    exact bind (h item (by simp)) (ih fun other ho => h other (by simp [ho]))

theorem forIn {items : List β} {body : β → PUnit → Run (StateM Disk) (ForInStep PUnit)}
    (h : ∀ item ∈ items, Settles output disk (body item ⟨⟩) (.ok (.yield ⟨⟩))) :
    Settles output disk (ForIn.forIn items PUnit.unit body) (.ok PUnit.unit) := by
  induction items with
  | nil => exact pure PUnit.unit
  | cons item rest ih =>
    rw [List.forIn_cons]
    exact bind (h item (by simp)) (ih fun other ho => h other (by simp [ho]))

end Settles

structure Logger.IsQuiet (logger : Logger (StateM Disk)) : Prop where
  sink : ∀ path, logger.output.sink ≠ .file path
  stamp : ∀ disk, (logger.stamp.run disk).2 = disk

section

variable {logger : Logger (StateM Disk)}

theorem settles_write (hq : logger.IsQuiet) (time : String) (event : Event) (disk : Disk) :
    Settles logger.output disk (logger.write (Log.line logger.output.colored time event))
      (.ok ()) := by
  rw [Logger.write]
  cases hs : logger.output.sink with
  | off => exact .pure ()
  | stderr => exact .printError _
  | stdout => exact fun p => ⟨_, _, exec_print _ p disk, .line hs time event, rfl⟩
  | file path => exact absurd hs (hq.sink path)

theorem settles_report (hq : logger.IsQuiet) (event : Event) (disk : Disk) :
    Settles logger.output disk (logger.report event) (.ok ()) := by
  rw [Logger.report]
  split
  · exact .bind (.onHost (Prod.ext rfl (hq.stamp disk))) (settles_write hq _ event disk)
  · exact .pure ()

theorem settles_finish (hq : logger.IsQuiet) (message : String) (attempt : Attempt α)
    (disk : Disk) :
    Settles logger.output disk (logger.finish message attempt)
      (attempt.value.mapError (.of message)) := by
  refine .bind (.forM fun event _ => settles_report hq event disk) ?_
  rw [Attempt.value]
  cases attempt.run.value with
  | ok a => exact .pure a
  | error e => exact .fail _

/-- What is asked for: the path among the arguments, else the one in the environment, else the
nearest source. -/
def asked (env : Environment) (config : Option String) (disk : Disk) : Search :=
  ⟨config.or (env.lookup Source.pathVariable), disk.currentPath?.getD "."⟩

theorem settles_load (hq : logger.IsQuiet) (env : Environment) (config : Option String)
    (disk : Disk) :
    Settles logger.output disk (load logger env config)
      (((asked env config disk).loaded disk).mapError (.of "Failed to load configuration")) := by
  have hdiscover : (Search.discover env : StateM Disk Search).run disk =
      (⟨env.lookup Source.pathVariable, disk.currentPath?.getD "."⟩, disk) := rfl
  have hload : ((asked env config disk).load : StateM Disk (Attempt Loaded)).run disk =
      (((asked env config disk).load : StateM Disk (Attempt Loaded)).run disk |>.1, disk) :=
    Prod.ext rfl (Search.run_load_snd disk _)
  exact .bind (.onHost hdiscover) (.bind (.onHost hload) (settles_finish hq _ _ disk))

theorem settles_resolve (hq : logger.IsQuiet) (env : Environment) (loaded : Loaded)
    (message : String) (disk : Disk) :
    Settles logger.output disk (resolve logger env loaded message)
      ((loaded.item.resolve env).value.mapError (.of (message ++ loaded.path))) :=
  settles_finish hq _ _ disk

end

theorem sink_ofSink (setting : Option String) (sink : Log.Sink) :
    (Log.Output.ofSink setting sink).sink = sink := by
  cases sink <;> rfl

def loggerOf (stamp : StateM Disk String) (env : Environment) (call : CommandLine.Invocation) :
    Logger (StateM Disk) :=
  ⟨.ofSink (env.lookup Log.colorVariable) (Log.Sink.ofText call.log),
    Log.Filter.ofText (Log.defaultLevel call.verbose) ((env.lookup Log.filterVariable).getD ""),
    stamp⟩

theorem settles_openLog (stamp : StateM Disk String) (env : Environment)
    {call : CommandLine.Invocation} (hlog : ∀ path, Log.Sink.ofText call.log ≠ .file path)
    (disk : Disk) :
    Settles (loggerOf stamp env call).output disk (openLog stamp env call)
      (.ok (loggerOf stamp env call)) := by
  simp only [openLog, loggerOf]
  cases hs : Log.Sink.ofText call.log with
  | file path => exact absurd hs (hlog path)
  | off => exact .pure _
  | stdout | stderr => exact .bind (.forIn fun _ _ => .bind (.printError _) (.pure _)) (.pure _)

structure Clock where
  stamp : StateM Disk String
  keeps : ∀ disk, (stamp.run disk).2 = disk

/-- Arguments that are understood and send the log to no file. -/
structure Call where
  arguments : List String
  invocation : CommandLine.Invocation
  parses : CommandLine.parse arguments = .ok invocation
  quiet : ∀ path, Log.Sink.ofText invocation.log ≠ .file path

namespace Call

def output (call : Call) (env : Environment) : Log.Output :=
  .ofSink (env.lookup Log.colorVariable) (Log.Sink.ofText call.invocation.log)

def logger (call : Call) (clock : Clock) (env : Environment) : Logger (StateM Disk) :=
  loggerOf clock.stamp env call.invocation

theorem isQuiet_logger (call : Call) (clock : Clock) (env : Environment) :
    (call.logger clock env).IsQuiet where
  sink := fun path => by
    rw [logger, loggerOf, sink_ofSink]
    exact call.quiet path
  stamp := clock.keeps

def run (call : Call) (clock : Clock) (env : Environment) (disk : Disk) : Outcome × Disk :=
  (Program.run clock.stamp env call.arguments).run disk

end Call

def perform (logger : Logger (StateM Disk)) (env : Environment)
    (invocation : CommandLine.Invocation) : Run (StateM Disk) Unit :=
  match invocation.command with
  | .generate output stdout => generate logger env invocation.config output stdout
  | .validate => validate logger env invocation.config
  | .init directory force => init directory force
  | .presets name => presets name

theorem call_eq (stamp : StateM Disk String) (env : Environment)
    (invocation : CommandLine.Invocation) :
    call stamp env invocation =
      openLog stamp env invocation >>= fun logger => perform logger env invocation := rfl

def ended : (Except Failure Unit × Printed) × Disk → Outcome × Disk
  | ((.ok (), p), disk) => (⟨0, p⟩, disk)
  | ((.error failure, p), disk) => (⟨1, { p with err := p.err ++ failure.text }⟩, disk)

theorem run_eq_ended {stamp : StateM Disk String} {env : Environment} {arguments : List String}
    {invocation : CommandLine.Invocation} (h : CommandLine.parse arguments = .ok invocation)
    (disk : Disk) :
    (run stamp env arguments : StateM Disk Outcome).run disk =
      ended (exec (call stamp env invocation) ⟨"", ""⟩ disk) := by
  simp only [run, h]
  have hexec : (((call stamp env invocation).run.run ⟨"", ""⟩ : StateM Disk _).run disk) =
      exec (call stamp env invocation) ⟨"", ""⟩ disk := rfl
  rw [Disk.run_bind, hexec]
  rcases exec (call stamp env invocation) ⟨"", ""⟩ disk with ⟨⟨_ | _, p⟩, after⟩ <;> rfl

theorem Call.run_eq (call : Call) (clock : Clock) (env : Environment) (disk : Disk) :
    ∃ p, LogText (call.output env) p.out ∧ call.run clock env disk =
      ended (exec (perform (call.logger clock env) env call.invocation) p disk) := by
  have hopen := settles_openLog clock.stamp env call.quiet disk
  obtain ⟨p, text, hexec, htext, hout⟩ :=
    hopen.exec_bind (fun logger => perform logger env call.invocation) ⟨"", ""⟩
  rw [String.empty_append] at hout
  refine ⟨p, hout ▸ htext, ?_⟩
  rw [Call.run, run_eq_ended call.parses, call_eq, hexec]
  rfl

end FlatConfig.Program
