import FlatConfig.Host
import FlatConfig.Item
import FlatConfig.Json.Reader
import FlatConfig.Yaml.Reader

set_option autoImplicit false

namespace FlatConfig

structure Search where
  explicit : Option String
  start : String
  deriving DecidableEq, Repr

structure Loaded where
  search : Search
  path : String
  item : Item

namespace Source

inductive Format where
  | yaml
  | json
  deriving DecidableEq, Repr

def Format.ofExtension? (extension : String) : Option Format :=
  match String.ofList (extension.toList.map Char.toLower) with
  | "yaml" | "yml" => some .yaml
  | "json" => some .json
  | _ => none

def Format.ofPath? (path : String) : Option Format :=
  (Path.extension? path).bind ofExtension?

def fileNames : List String := ["usagi.config.yaml", "usagi.config.yml", "usagi.config.json"]

def pathVariable : String := "USAGI_CONFIG_PATH"

def parse (format : Format) (text : String) : Except Error Value :=
  match format with
  | .yaml => (Yaml.read? text).elim (.error .malformedYaml) .ok
  | .json => (Json.read? text).elim (.error .malformedJson) .ok

def read (path text : String) : Attempt Item := do
  match Format.ofPath? path with
  | none => Attempt.fail (.unsupportedFormat path)
  | some format =>
    let document ← Attempt.ofExcept (parse format text)
    Attempt.tell (.parsedSource path)
    Attempt.ofExcept (Item.ofValue document)

section Host

variable {m : Type → Type} [Monad m] [Host m]

/-- A source is read before its format is looked at. -/
def load (path : String) : m (Attempt Item) := do
  if ← Host.isPresent path then
    match ← Host.read? path with
    | some text => return read path text
    | none => return Attempt.fail .unreadable
  else return Attempt.fail (.sourceNotFound path)

def candidates (start : String) : List String :=
  (Path.ancestors start).flatMap fun directory => fileNames.map (Path.join directory)

def find? (start : String) : m (Option String) := (candidates start).findM? Host.isFile

end Host
end Source

namespace Search

variable {m : Type → Type} [Monad m] [Host m]

def discover (env : Environment) : m Search :=
  return ⟨env.lookup Source.pathVariable, (← Host.currentDirectory).getD "."⟩

def load (search : Search) : m (Attempt Loaded) := do
  let path ← match search.explicit with
    | some path => pure (some path)
    | none => Source.find? search.start
  match path with
  | none => return Attempt.fail (.sourceNotFound search.start)
  | some path =>
    let item ← Source.load path
    return do
      let item ← item
      Attempt.tell (.loadedSource path)
      return ⟨search, path, item⟩

end Search
end FlatConfig
