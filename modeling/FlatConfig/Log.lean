import FlatConfig.Log.Directive

/-!
The log: where it goes, which events it shows, and how a line reads.

A filter is a list of rules. Of those that match an event the one with the longest target decides;
of these one that asks for a field goes first, and of equal ones the last.
-/

set_option autoImplicit false

namespace FlatConfig.Log

inductive Sink where
  | off
  | stdout
  | stderr
  | file (path : String)
  deriving DecidableEq, Repr

/-- A number or a word names a sink; anything else is the path of a file. -/
def Sink.ofText : String → Sink
  | "0" | "off" => .off
  | "1" | "stdout" => .stdout
  | "2" | "stderr" => .stderr
  | path => .file path

def colorVariable : String := "NO_COLOR"

structure Output where
  sink : Sink
  colored : Bool
  deriving DecidableEq, Repr

/-- Files are written without colours, and so is everything when the variable has a value. -/
def Output.ofSink (setting : Option String) (sink : Sink) : Output :=
  match sink with
  | .file _ => ⟨sink, false⟩
  | _ => ⟨sink, setting.all (· == "")⟩

def defaultLevel (verbose : Bool) : Level := if verbose then .debug else .info

def filterVariable : String := "RUST_LOG"

structure Rule where
  target : Option String
  field : Option String
  rank : Nat
  deriving DecidableEq, Repr

abbrev Filter := List Rule

/-- A directive about spans is no rule for events, since no event is in a span here. -/
def Directive.rule? (directive : Directive) : Option Rule :=
  if directive.span.isSome || directive.field.any FieldFilter.hasValue then none
  else some ⟨directive.target, directive.field.map FieldFilter.name, directive.rank⟩

/-- The filter of a text; without a directive the default level holds for all targets. -/
def Filter.ofText (default : Level) (text : String) : Filter :=
  match (directives text).1 with
  | [] => [⟨none, none, default.rank⟩]
  | directives => directives.filterMap Directive.rule?

namespace Rule

def appliesTo (rule : Rule) (event : Event) : Bool :=
  rule.target.all (fun front => front.toList.isPrefixOf event.target.toList) &&
    rule.field.all event.fieldNames.contains

def targetLength (rule : Rule) : Nat := (rule.target.map String.length).getD 0

def yieldsTo (rule later : Rule) : Bool :=
  if rule.targetLength != later.targetLength then rule.targetLength < later.targetLength
  else
    match rule.field, later.field with
    | none, _ => true
    | some _, none => false
    | some field, some laterField => field ≤ laterField

end Rule

def Filter.decisive? (filter : Filter) (event : Event) : Option Rule :=
  (filter.filter (·.appliesTo event)).foldl
    (fun best rule => if best.all (·.yieldsTo rule) then some rule else best)
    none

def Filter.shows (filter : Filter) (event : Event) : Bool :=
  (filter.decisive? event).any fun rule => event.level.rank ≤ rule.rank

def levelColumn (level : Level) : String :=
  String.ofList (List.replicate (5 - level.name.length) ' ') ++ level.name

def styled (colored : Bool) (code text : String) : String :=
  if colored then "\x1b[" ++ code ++ "m" ++ text ++ "\x1b[0m" else text

def dimmed : String := "2"

def italic : String := "3"

def levelColor : Level → String
  | .error => "31"
  | .warn => "33"
  | .info => "32"
  | .debug => "34"
  | .trace => "35"

def fieldsText (colored : Bool) (event : Event) : String :=
  String.join (event.fields.map fun (name, text) =>
    " " ++ styled colored italic name ++ styled colored dimmed "=" ++ text)

def line (colored : Bool) (stamp : String) (event : Event) : String :=
  styled colored dimmed stamp ++ " " ++
    styled colored (levelColor event.level) (levelColumn event.level) ++ " " ++
    styled colored dimmed event.target ++ styled colored dimmed ":" ++ " " ++ event.message ++
    fieldsText colored event ++ "\n"

end FlatConfig.Log
