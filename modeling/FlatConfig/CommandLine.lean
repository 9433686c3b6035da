/-!
The command line: what the arguments ask for, or why they are refused.

A switch stands for itself or takes a value: `--name value`, `--name=value`, `-n value`, `-nvalue`
or `-n=value`. Short switches without a value may stand together. After `--` everything is a plain
argument. The switches of the program itself may stand before or after the command.
-/

set_option autoImplicit false

namespace FlatConfig.CommandLine

inductive Command where
  | generate (output : Option String) (stdout : Bool)
  | validate
  | init (directory : String) (force : Bool)
  | presets (name : Option String)
  deriving DecidableEq, Repr

structure Invocation where
  config : Option String
  verbose : Bool
  log : String
  command : Command
  deriving DecidableEq, Repr

inductive Flag where
  | verbose
  | stdout
  | force
  | help
  | version
  deriving DecidableEq, Repr

inductive Setting where
  | config
  | log
  | output
  | directory
  deriving DecidableEq, Repr

def Setting.isPath : Setting → Bool
  | .output | .directory => true
  | .config | .log => false

inductive Switch where
  | flag (flag : Flag)
  | setting (setting : Setting)
  deriving DecidableEq, Repr

namespace Switch

def long : Switch → String
  | .flag .verbose => "verbose"
  | .flag .stdout => "stdout"
  | .flag .force => "force"
  | .flag .help => "help"
  | .flag .version => "version"
  | .setting .config => "config"
  | .setting .log => "log"
  | .setting .output => "output"
  | .setting .directory => "dir"

def short? : Switch → Option Char
  | .flag .verbose => some 'v'
  | .flag .help => some 'h'
  | .flag .version => some 'V'
  | .setting .config => some 'c'
  | .setting .log => some 'l'
  | .setting .output => some 'o'
  | .flag .stdout | .flag .force | .setting .directory => none

end Switch

inductive Scope where
  | top
  | generate
  | validate
  | init
  | presets
  | help
  deriving DecidableEq, Repr

namespace Scope

def commands : List Scope := [.generate, .validate, .init, .presets, .help]

def name : Scope → String
  | .top => ""
  | .generate => "generate"
  | .validate => "validate"
  | .init => "init"
  | .presets => "presets"
  | .help => "help"

def command? (name : String) : Option Scope := commands.find? fun c => c.name == name

def switches : Scope → List Switch
  | .top => [.setting .config, .flag .verbose, .setting .log, .flag .help, .flag .version]
  | .generate =>
    [.setting .config, .setting .output, .flag .stdout, .flag .verbose, .setting .log, .flag .help]
  | .validate | .presets => [.setting .config, .flag .verbose, .setting .log, .flag .help]
  | .init =>
    [.setting .config, .setting .directory, .flag .force, .flag .verbose, .setting .log,
      .flag .help]
  | .help => []

def long? (scope : Scope) (name : String) : Option Switch :=
  scope.switches.find? fun s => s.long == name

def short? (scope : Scope) (c : Char) : Option Switch :=
  scope.switches.find? fun s => s.short? == some c

end Scope

inductive Refusal where
  | help (scope : Scope)
  | version
  | invalidValue
  | conflict
  | unknownArgument
  | unknownCommand
  | unexpectedValue
  | missingCommand
  | noArguments
  deriving DecidableEq, Repr

/-- What has been given in one scope. A switch that awaits or has just got its value is looked at
when the next one comes. -/
structure Given where
  flags : List Flag
  settings : List (Setting × String)
  name : Option String
  pending : Option (Setting × Option String)
  deriving DecidableEq, Repr

namespace Given

def none : Given := ⟨[], [], .none, .none⟩

def isAwaiting (g : Given) : Bool := g.pending.any fun p => p.2.isNone

def isEmpty (g : Given) : Bool := g.flags.isEmpty && g.settings.isEmpty

def supply (setting : Setting) (value : String) (g : Given) : Except Refusal Given :=
  if (g.settings.lookup setting).isSome then .error .conflict
  else if setting.isPath && value == "" then .error .invalidValue
  else .ok { g with settings := g.settings ++ [(setting, value)] }

def settle (g : Given) : Except Refusal Given :=
  match g.pending with
  | .none => .ok g
  | some (_, .none) => .error .invalidValue
  | some (setting, some value) => { g with pending := .none }.supply setting value

def raise (scope : Scope) (flag : Flag) (g : Given) : Except Refusal Given := do
  let g ← g.settle
  match flag with
  | .help => .error (.help scope)
  | .version => .error .version
  | flag =>
    if g.flags.contains flag then .error .conflict
    else return { g with flags := g.flags ++ [flag] }

def assign (setting : Setting) (value : Option String) (g : Given) : Except Refusal Given := do
  let g ← g.settle
  match value with
  | some value => g.supply setting value
  | .none => return { g with pending := some (setting, .none) }

end Given

def long (scope : Scope) (text : List Char) (g : Given) : Except Refusal Given :=
  let name := String.ofList (text.takeWhile (· != '='))
  let value := (text.dropWhile (· != '=')).tail?.map String.ofList
  match scope.long? name with
  | none => .error .unknownArgument
  | some (.flag flag) => if value.isSome then .error .unexpectedValue else g.raise scope flag
  | some (.setting setting) => g.assign setting value

def attached : List Char → Option String
  | [] => none
  | '=' :: value => some (String.ofList value)
  | value => some (String.ofList value)

def short (scope : Scope) (g : Given) : List Char → Except Refusal Given
  | [] => .ok g
  | c :: rest =>
    match scope.short? c with
    | none => .error .unknownArgument
    | some (.flag flag) => do short scope (← g.raise scope flag) rest
    | some (.setting setting) => g.assign setting (attached rest)

def plain (scope : Scope) (trailing : Bool) (argument : String) (g : Given) :
    Except Refusal Given :=
  match scope with
  | .presets =>
    if g.name.isSome then .error .unknownArgument
    else do return { ← g.settle with name := some argument }
  | .top =>
    if trailing && (Scope.command? argument).isSome then .error .unknownArgument
    else .error .unknownCommand
  | _ => .error .unknownArgument

def scan (scope : Scope) (trailing : Bool) (g : Given) :
    List String → Except Refusal (Given × Option (Scope × List String))
  | [] => .ok (g, none)
  | argument :: rest =>
    if trailing then do scan scope true (← plain scope true argument g) rest
    else
      match (if scope = .top ∧ ¬ g.isAwaiting then Scope.command? argument else none) with
      | some command => .ok (g, some (command, rest))
      | none =>
        match argument.toList with
        | ['-', '-'] => scan scope true g rest
        | '-' :: '-' :: text => do scan scope false (← long scope text g) rest
        | '-' :: c :: text => do scan scope false (← short scope g (c :: text)) rest
        | _ =>
          match g.pending with
          | some (setting, none) =>
            scan scope false { g with pending := some (setting, some argument) } rest
          | _ => do scan scope false (← plain scope false argument g) rest

def helpOn : List String → Refusal
  | [] => .help .top
  | name :: rest =>
    match Scope.command? name with
    | some scope => if rest.isEmpty then .help scope else .unknownCommand
    | none => .unknownCommand

def scanCommand (scope : Scope) (arguments : List String) : Except Refusal Given := do
  let (g, _) ← scan scope false Given.none arguments
  let g ← g.settle
  if g.flags.contains .stdout && (g.settings.lookup .output).isSome then .error .conflict
  else return g

def Command.of? (scope : Scope) (g : Given) : Option Command :=
  match scope with
  | .generate => some (.generate (g.settings.lookup .output) (g.flags.contains .stdout))
  | .validate => some .validate
  | .init => some (.init ((g.settings.lookup .directory).getD ".") (g.flags.contains .force))
  | .presets => some (.presets g.name)
  | .top | .help => none

/-- The arguments do not hold the name of the program. A switch after the command overrides the same
one before it. -/
def parse (arguments : List String) : Except Refusal Invocation := do
  let (before, command) ← scan .top false Given.none arguments
  match command with
  | none =>
    let before ← before.settle
    if before.isEmpty then .error .noArguments else .error .missingCommand
  | some (.help, rest) => .error (helpOn rest)
  | some (scope, rest) =>
    let after ← scanCommand scope rest
    let before ← before.settle
    match Command.of? scope after with
    | none => .error .missingCommand
    | some command =>
      return {
        config := (after.settings.lookup .config).or (before.settings.lookup .config)
        verbose := after.flags.contains .verbose || before.flags.contains .verbose
        log := ((after.settings.lookup .log).or (before.settings.lookup .log)).getD "2"
        command }

def outputVariable : String := "USAGI_OUTPUT"

def defaultOutput : String := ".coderabbit.yaml"

/-- The output that is asked for, else the one of the environment unless it is empty. -/
def outputPath (output fallback : Option String) : String :=
  (output.or (fallback.filter (· != ""))).getD defaultOutput

end FlatConfig.CommandLine
