import FlatConfig.Host

set_option autoImplicit false

namespace FlatConfig.Starter

def fileName : String := "usagi.config.yaml"

def lines : List String :=
  ["# Starter configuration for usagi.",
    "#",
    "# Each list entry is a fragment. Fragments are merged in order and the",
    "# first value set for a key wins, so put overrides near the top.",
    "# Run `usagi generate` to write .coderabbit.yaml.",
    "",
    "- version: 2",
    "  language: en-US",
    "  reviews:",
    "    profile: chill",
    "    auto_review:",
    "      enabled: true",
    "      drafts: false",
    "",
    "- instruction_sets:",
    "    security:",
    "      description: Security review checklist",
    "      instructions: |",
    "        Review \x7b\x7barea\x7d\x7d code for injection, secrets in source and unsafe input handling.",
    "        \x7b\x7b#if strict\x7d\x7dTreat every finding as blocking.\x7b\x7b/if\x7d\x7d",
    "",
    "  enhanced_path_instructions:",
    "    - path: \"src/**/*.ts\"",
    "      instructions:",
    "        use: security",
    "        with:",
    "          area: application",
    "          strict: false",
    "    - path: \"**/*.md\"",
    "      instructions: Check links and spelling.",
    "",
    "- rule_collections:",
    "    typescript:",
    "      description: Shared TypeScript rules",
    "      rules:",
    "        - no-explicit-any",
    "      packages:",
    "        - \"@usagi/typescript-rules\""]

def text : String := String.join (lines.map (· ++ "\n"))

inductive Failure where
  | alreadyExists (path : String)
  | directory (path : String)
  | write (path : String)
  deriving DecidableEq, Repr

def Failure.message : Failure → String
  | .alreadyExists path => "'" ++ path ++ "' already exists. Use --force to overwrite."
  | .directory path => "Failed to create directory: " ++ path
  | .write path => "Failed to write " ++ path

/-- Writes the source into a directory, which is made if need be; the answer is its path. What is
there already is overwritten only when `force` is set. -/
def create {m : Type → Type} [Monad m] [Host m] (directory : String) (force : Bool) :
    m (Except Failure String) := do
  let path := Path.join directory fileName
  if !force && (← Host.isPresent path) then return .error (.alreadyExists path)
  else if !(← Host.makeDirectories directory) then return .error (.directory directory)
  else if !(← Host.write path text) then return .error (.write path)
  else return .ok path

end FlatConfig.Starter
