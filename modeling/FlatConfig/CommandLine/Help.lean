import FlatConfig.CommandLine

set_option autoImplicit false

namespace FlatConfig.CommandLine

def programName : String := "usagi"

def versionText : String := programName ++ " 0.2.0\n"

def Switch.valueName? : Switch → Option String
  | .setting .config => some "CONFIG"
  | .setting .log => some "LOG"
  | .setting .output => some "FILE"
  | .setting .directory => some "DIR"
  | .flag _ => none

def Switch.description : Switch → String
  | .setting .config =>
    "Path to configuration source (overrides USAGI_CONFIG_PATH and discovery)"
  | .setting .log =>
    "Logging output: 0/off, 1/stdout, 2/stderr (default), or filename [default: 2]"
  | .setting .output => "Output file path (default: $USAGI_OUTPUT or .coderabbit.yaml)"
  | .setting .directory => "Directory to write into (default: current directory) [default: .]"
  | .flag .verbose => "Enable verbose logging"
  | .flag .stdout => "Write to stdout instead of a file"
  | .flag .force => "Overwrite an existing configuration source"
  | .flag .help => "Print help"
  | .flag .version => "Print version"

def Scope.description : Scope → String
  | .top => "Flat-config style generator for code review tool YAML configuration"
  | .generate => "Resolve the configuration and write it as YAML"
  | .validate => "Resolve the configuration and report whether it is valid"
  | .init => "Write a starter configuration source"
  | .presets => "List built-in presets, or print one as YAML"
  | .help => "Print this message or the help of the given subcommand(s)"

def Scope.usage (scope : Scope) : String :=
  match scope with
  | .top => programName ++ " [OPTIONS] <COMMAND>"
  | .help => programName ++ " help [COMMAND]..."
  | .presets => programName ++ " presets [OPTIONS] [NAME]"
  | scope => programName ++ " " ++ scope.name ++ " [OPTIONS]"

def Scope.arguments : Scope → List (String × String)
  | .presets => [("[NAME]", "Preset to print")]
  | .help => [("[COMMAND]...", "Print help for the subcommand(s)")]
  | _ => []

def Switch.entry (s : Switch) : String :=
  (match s.short? with
    | some c => "-" ++ String.singleton c ++ ", "
    | none => "    ") ++ "--" ++ s.long ++
    (match s.valueName? with
      | some name => " <" ++ name ++ ">"
      | none => "")

def titled (title : String) (entries : List (String × String)) : String :=
  let width := entries.foldl (fun width entry => max width entry.1.length) 0
  if entries.isEmpty then ""
  else
    "\n" ++ title ++ ":\n" ++ String.join (entries.map fun (entry, description) =>
      "  " ++ entry ++ String.ofList (List.replicate (width + 2 - entry.length) ' ') ++
        description ++ "\n")

def helpText (scope : Scope) : String :=
  scope.description ++ "\n\nUsage: " ++ scope.usage ++ "\n" ++
    titled "Commands"
      (if scope = .top then Scope.commands.map fun c => (c.name, c.description) else []) ++
    titled "Arguments" scope.arguments ++
    titled "Options" (scope.switches.map fun s => (s.entry, s.description))

def Refusal.reason : Refusal → String
  | .help _ | .version | .noArguments => ""
  | .invalidValue => "a value is missing or may not be empty"
  | .conflict => "an argument is given twice or excludes another one"
  | .unknownArgument => "unexpected argument"
  | .unknownCommand => "unrecognized subcommand"
  | .unexpectedValue => "unexpected value for a flag"
  | .missingCommand => "a subcommand is required"

end FlatConfig.CommandLine
