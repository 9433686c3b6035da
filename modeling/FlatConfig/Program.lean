import FlatConfig.CommandLine.Help
import FlatConfig.Log
import FlatConfig.Preset
import FlatConfig.Resolve
import FlatConfig.Source
import FlatConfig.Starter
import FlatConfig.Yaml.Writer

set_option autoImplicit false

namespace FlatConfig.Program

structure Printed where
  out : String
  err : String
  deriving DecidableEq, Repr

structure Outcome where
  code : Nat
  printed : Printed
  deriving DecidableEq, Repr

structure Failure where
  message : String
  causes : List String
  deriving DecidableEq, Repr

def wording (e : Error) : String :=
  e.message?.getD <|
    match e with
    | .malformedYaml => "the text is not one YAML document"
    | .malformedJson => "the text is not one JSON document"
    | _ => "the file cannot be read as text"

def Failure.of (message : String) (e : Error) : Failure :=
  ⟨message, wording e :: e.cause?.toList⟩

def Failure.refused (message : String) : Failure := ⟨message, ["refused by the system"]⟩

def hang (indent : Nat) (text : String) : String :=
  ("\n" ++ String.ofList (List.replicate indent ' ')).intercalate (text.splitOn "\n")

/-- One cause stands alone, several are numbered from zero. -/
def causeLines : List String → List String
  | [] => []
  | [cause] => ["    " ++ hang 4 cause]
  | causes => causes.zipIdx.map fun (cause, i) =>
    let number := toString i
    String.ofList (List.replicate (5 - number.length) ' ') ++ number ++ ": " ++ hang 7 cause

def Failure.text (failure : Failure) : String :=
  "Error: " ++ failure.message ++
    (if failure.causes.isEmpty then ""
      else "\n\nCaused by:\n" ++ "\n".intercalate (causeLines failure.causes)) ++ "\n"

section

variable {m : Type → Type} [Monad m] [Host m]

abbrev Run (m : Type → Type) := ExceptT Failure (StateT Printed m)

def fail {α : Type} (failure : Failure) : Run m α := throw failure

def print (text : String) : Run m Unit := modify fun p => { p with out := p.out ++ text }

def printError (text : String) : Run m Unit := modify fun p => { p with err := p.err ++ text }

def onHost {α : Type} (action : m α) : Run m α := ExceptT.lift (StateT.lift action)

/-- Where events go and which are shown. The time of each is asked for when it happens. -/
structure Logger (m : Type → Type) where
  output : Log.Output
  filter : Log.Filter
  stamp : m String

def openLog (stamp : m String) (env : Environment) (call : CommandLine.Invocation) :
    Run m (Logger m) := do
  let sink := Log.Sink.ofText call.log
  if let .file path := sink then
    if !(← onHost (Host.append path "")) then
      fail (.refused ("Failed to open log file: " ++ path))
  let text := (env.lookup Log.filterVariable).getD ""
  if sink != .off then
    for complaint in (Log.directives text).2 do printError (complaint ++ "\n")
  return ⟨.ofSink (env.lookup Log.colorVariable) sink,
    Log.Filter.ofText (Log.defaultLevel call.verbose) text, stamp⟩

def Logger.write (logger : Logger m) (text : String) : Run m Unit :=
  match logger.output.sink with
  | .off => pure ()
  | .stdout => print text
  | .stderr => printError text
  | .file path => discard (onHost (Host.append path text))

def Logger.report (logger : Logger m) (event : Event) : Run m Unit := do
  if logger.filter.shows event then
    logger.write (Log.line logger.output.colored (← onHost logger.stamp) event)

def Logger.finish {α : Type} (logger : Logger m) (message : String) (attempt : Attempt α) :
    Run m α := do
  let logged := attempt.run
  logged.log.forM logger.report
  match logged.value with
  | .ok a => return a
  | .error e => fail (.of message e)

/-- A path among the arguments takes the place of what the environment asks for. -/
def load (logger : Logger m) (env : Environment) (config : Option String) : Run m Loaded := do
  let search ← onHost (Search.discover env)
  let search := { search with explicit := config.or search.explicit }
  logger.finish "Failed to load configuration" (← onHost search.load)

def resolve (logger : Logger m) (env : Environment) (loaded : Loaded) (message : String) :
    Run m Fragment :=
  logger.finish (message ++ loaded.path) (loaded.item.resolve env)

def generate (logger : Logger m) (env : Environment) (config output : Option String)
    (stdout : Bool) : Run m Unit := do
  let loaded ← load logger env config
  let resolved ← resolve logger env loaded "Failed to resolve configuration from "
  if stdout then print resolved.toYaml
  else
    let path := CommandLine.outputPath output (env.lookup CommandLine.outputVariable)
    if !(← onHost (Host.write path resolved.toYaml)) then
      fail (.refused ("Failed to write " ++ path))
    logger.report (.wroteConfiguration path)
    print ("Generated " ++ path ++ "\n")

def validate (logger : Logger m) (env : Environment) (config : Option String) : Run m Unit := do
  let loaded ← load logger env config
  discard (resolve logger env loaded "Invalid configuration in ")
  print "Configuration is valid\n"

def init (directory : String) (force : Bool) : Run m Unit := do
  match ← onHost (Starter.create directory force) with
  | .ok path => print ("Created " ++ path ++ "\n")
  | .error (.alreadyExists path) => fail ⟨(Starter.Failure.alreadyExists path).message, []⟩
  | .error failure => fail (.refused failure.message)

def presets (name : Option String) : Run m Unit :=
  match name with
  | none => Preset.all.forM fun preset => print (preset.name ++ "\n")
  | some name =>
    match Preset.ofName? name with
    | some preset => print preset.fragment.toYaml
    | none =>
      fail ⟨"Unknown preset '" ++ name ++ "'. Available: " ++
        ", ".intercalate (Preset.all.map Preset.name), []⟩

def call (stamp : m String) (env : Environment) (invocation : CommandLine.Invocation) :
    Run m Unit := do
  let logger ← openLog stamp env invocation
  match invocation.command with
  | .generate output stdout => generate logger env invocation.config output stdout
  | .validate => validate logger env invocation.config
  | .init directory force => init directory force
  | .presets name => presets name

def refuse : CommandLine.Refusal → Outcome
  | .help scope => ⟨0, ⟨CommandLine.helpText scope, ""⟩⟩
  | .version => ⟨0, ⟨CommandLine.versionText, ""⟩⟩
  | .noArguments => ⟨2, ⟨"", CommandLine.helpText .top⟩⟩
  | refusal => ⟨2, ⟨"", "error: " ++ refusal.reason ++ "\n"⟩⟩

def run (stamp : m String) (env : Environment) (arguments : List String) : m Outcome := do
  match CommandLine.parse arguments with
  | .error refusal => return refuse refusal
  | .ok invocation =>
    match ← (call stamp env invocation).run.run ⟨"", ""⟩ with
    | (.ok (), printed) => return ⟨0, printed⟩
    | (.error failure, printed) =>
      return ⟨1, { printed with err := printed.err ++ failure.text }⟩

end

end FlatConfig.Program
