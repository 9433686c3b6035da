import FlatConfig.Yaml.Lexer

/-!
The nodes of a YAML document.

Anchors are numbered as they are met: a new name takes the number of names known so far. An alias
refers to the number that its name had where the alias stands, and means the last node that was
given this number anywhere in the document.
-/

set_option autoImplicit false

namespace FlatConfig.Yaml

inductive Tag where
  | bool
  | int
  | float
  | null
  /-- A tag of the document's own, which no configuration value has. -/
  | local
  | other
  deriving DecidableEq, Repr

namespace Tag

def coreTags : List (Octets × Tag) :=
  [("bool", .bool), ("int", .int), ("float", .float), ("null", .null)].map fun (name, tag) =>
    (octets ("tag:yaml.org,2002:" ++ name), tag)

/-- What begins with an exclamation mark is local, unless the rest of it is no text. -/
def isLocal : Octets → Bool
  | [] => false
  | mark :: rest => mark == 0x21 && (String.fromUTF8? ⟨rest.toArray⟩).isSome

def ofUri (uri : Octets) : Tag :=
  (coreTags.lookup uri).getD (if isLocal uri then .local else .other)

end Tag

inductive Node where
  | alias (anchor : Nat)
  | scalar (anchor : Option Nat) (tag : Option Tag) (text : String) (plain : Bool)
  | sequence (anchor : Option Nat) (tag : Option Tag) (items : List Node)
  | mapping (anchor : Option Nat) (tag : Option Tag) (entries : List (Node × Node))

namespace Node

def empty (anchor : Option Nat := none) (tag : Option Tag := none) : Node :=
  .scalar anchor tag "" true

mutual
def anchored : Node → List (Nat × Node)
  | .alias _ => []
  | .scalar anchor tag text plain => own anchor (.scalar anchor tag text plain)
  | .sequence anchor tag items => own anchor (.sequence anchor tag items) ++ anchoredItems items
  | .mapping anchor tag entries =>
    own anchor (.mapping anchor tag entries) ++ anchoredEntries entries

def anchoredItems : List Node → List (Nat × Node)
  | [] => []
  | item :: rest => item.anchored ++ anchoredItems rest

def anchoredEntries : List (Node × Node) → List (Nat × Node)
  | [] => []
  | (key, value) :: rest => key.anchored ++ value.anchored ++ anchoredEntries rest

def own : Option Nat → Node → List (Nat × Node)
  | some anchor, node => [(anchor, node)]
  | none, _ => []
end

mutual
/-- Scalars and aliases count once, collections for their start and their end. -/
def eventCount : Node → Nat
  | .alias _ => 1
  | .scalar .. => 1
  | .sequence _ _ items => eventCountItems items + 2
  | .mapping _ _ entries => eventCountEntries entries + 2

def eventCountItems : List Node → Nat
  | [] => 0
  | item :: rest => item.eventCount + eventCountItems rest

def eventCountEntries : List (Node × Node) → Nat
  | [] => 0
  | (key, value) :: rest => key.eventCount + value.eventCount + eventCountEntries rest
end

end Node

structure Composer where
  tokens : List Token
  anchors : List (String × Nat) := []
  handles : List (String × Octets)

abbrev Compose := StateT Composer Option

namespace Compose

def fail {α : Type} : Compose α := fun _ => none

def peek? : Compose (Option Token) := return (← get).tokens.head?

def skip : Compose Unit := modify fun c => { c with tokens := c.tokens.tail }

def accept (t : Token) : Compose Bool := do
  if (← peek?) == some t then
    skip
    return true
  else return false

def expect (t : Token) : Compose Unit := do
  if !(← accept t) then fail

def isNextAmong (ts : List (Option Token)) : Compose Bool := return ts.contains (← peek?)

def declareAnchor (name : String) : Compose Nat := do
  let c ← get
  let number := c.anchors.length
  let others := c.anchors.filter (·.1 != name)
  set { c with anchors := others ++ [(name, number)] }
  return number

def resolveTag (handle : String) (suffix : Octets) : Compose Tag := do
  if handle == "" then return .ofUri suffix
  else
    match (← get).handles.lookup handle with
    | some expansion => return .ofUri (expansion ++ suffix)
    | none => fail

def anchor? : Compose (Option Nat) := do
  match ← peek? with
  | some (.anchor name) =>
    skip
    return some (← declareAnchor name)
  | _ => return none

def tag? : Compose (Option Tag) := do
  match ← peek? with
  | some (.tag handle suffix) =>
    skip
    return some (← resolveTag handle suffix)
  | _ => return none

def properties : Compose (Option Nat × Option Tag) := do
  match ← anchor? with
  | some anchor => return (some anchor, ← tag?)
  | none =>
    let tag ← tag?
    if tag.isSome then return (← anchor?, tag) else return (none, none)

def isEmptyInSequence : Compose Bool := isNextAmong [some .blockEntry, some .blockEnd]

def isEmptyInMapping : Compose Bool := isNextAmong [some .key, some .value, some .blockEnd]

def isEmptyInIndentless : Compose Bool :=
  isNextAmong [some .blockEntry, some .key, some .value, some .blockEnd]

def isEmptyInFlowSequence : Compose Bool := isNextAmong [some .flowEntry, some .flowSequenceEnd]

def isEmptyInFlowMapping : Compose Bool := isNextAmong [some .flowEntry, some .flowMappingEnd]

mutual
/-- A node. Only in a block may it be a block collection, and only after a key a sequence in the
column of the key. Every two calls take a token, so `fuel` of twice their number never runs out. -/
def node (block indentless : Bool) : Nat → Compose Node
  | 0 => fail
  | fuel + 1 => do
    if let some (.alias name) ← peek? then
      skip
      match (← get).anchors.lookup name with
      | some number => return .alias number
      | none => fail
    else
      let (anchor, tag) ← properties
      match ← peek? with
      | some (.scalar text plain) =>
        skip
        return .scalar anchor tag text plain
      | some .flowSequenceStart =>
        skip
        return .sequence anchor tag (← flowItems true fuel)
      | some .flowMappingStart =>
        skip
        return .mapping anchor tag (← flowEntries true fuel)
      | some .blockEntry =>
        if indentless then return .sequence anchor tag (← indentlessItems fuel)
        else bare anchor tag
      | some .blockSequenceStart =>
        if block then
          skip
          return .sequence anchor tag (← blockItems fuel)
        else bare anchor tag
      | some .blockMappingStart =>
        if block then
          skip
          return .mapping anchor tag (← blockEntries fuel)
        else bare anchor tag
      | _ => bare anchor tag
termination_by structural fuel => fuel

def bare (anchor : Option Nat) (tag : Option Tag) : Compose Node :=
  if anchor.isSome || tag.isSome then return .empty anchor tag else fail

def blockItems : Nat → Compose (List Node)
  | 0 => fail
  | fuel + 1 => do
    if ← accept .blockEnd then return []
    else
      expect .blockEntry
      let item ← if ← isEmptyInSequence then pure .empty else node true false fuel
      return item :: (← blockItems fuel)
termination_by structural fuel => fuel

def indentlessItems : Nat → Compose (List Node)
  | 0 => fail
  | fuel + 1 => do
    if ← accept .blockEntry then
      let item ← if ← isEmptyInIndentless then pure .empty else node true false fuel
      return item :: (← indentlessItems fuel)
    else return []
termination_by structural fuel => fuel

def blockEntries : Nat → Compose (List (Node × Node))
  | 0 => fail
  | fuel + 1 => do
    if ← accept .blockEnd then return []
    else
      expect .key
      let key ← if ← isEmptyInMapping then pure .empty else node true true fuel
      let value ←
        if ← accept .value then
          if ← isEmptyInMapping then pure .empty else node true true fuel
        else pure .empty
      return (key, value) :: (← blockEntries fuel)
termination_by structural fuel => fuel

/-- An item with a key is a mapping of one entry. After a key mark without a key the next token is
passed over. -/
def flowItems (first : Bool) : Nat → Compose (List Node)
  | 0 => fail
  | fuel + 1 => do
    if ← accept .flowSequenceEnd then return []
    else
      if !first then expect .flowEntry
      if ← accept .flowSequenceEnd then return []
      else if ← accept .key then
        let key ←
          if ← isNextAmong [some .value, some .flowEntry, some .flowSequenceEnd] then do
            skip
            pure .empty
          else node false false fuel
        let value ←
          if ← accept .value then
            if ← isEmptyInFlowSequence then pure .empty else node false false fuel
          else pure .empty
        return .mapping none none [(key, value)] :: (← flowItems false fuel)
      else
        let item ← node false false fuel
        return item :: (← flowItems false fuel)
termination_by structural fuel => fuel

def flowEntries (first : Bool) : Nat → Compose (List (Node × Node))
  | 0 => fail
  | fuel + 1 => do
    if ← accept .flowMappingEnd then return []
    else
      if !first then expect .flowEntry
      if ← accept .flowMappingEnd then return []
      else if ← accept .key then
        let key ←
          if ← isNextAmong [some .value, some .flowEntry, some .flowMappingEnd] then pure .empty
          else node false false fuel
        let value ←
          if ← accept .value then
            if ← isEmptyInFlowMapping then pure .empty else node false false fuel
          else pure .empty
        return (key, value) :: (← flowEntries false fuel)
      else
        let key ← node false false fuel
        return (key, .empty) :: (← flowEntries false fuel)
termination_by structural fuel => fuel
end

end Compose

def defaultHandles : List (String × Octets) :=
  [("!", octets "!"), ("!!", octets "tag:yaml.org,2002:")]

/-- The directives in front of a document, as the handles that they declare. A second version or
handle is an error, and so is a version other than 1.1 and 1.2. -/
def directives? (versioned : Bool) (handles : List (String × Octets)) :
    List Token → Option (List (String × Octets) × List Token)
  | .versionDirective major minor :: rest => do
    guard (!versioned && major == 1 && (minor == 1 || minor == 2))
    directives? true handles rest
  | .tagDirective handle expansion :: rest => do
    guard (handles.lookup handle).isNone
    directives? versioned (handles ++ [(handle, expansion)]) rest
  | rest => some (handles, rest)

def isDocumentOver : List Token → Bool
  | [] | .versionDirective .. :: _ | .tagDirective .. :: _ | .documentStart :: _
  | .documentEnd :: _ => true
  | _ => false

def composeAll (handles : List (String × Octets)) (tokens : List Token) :
    Option (Node × List Token) := do
  let fuel := 3 * tokens.length + 10
  let (node, c) ← (Compose.node true false fuel).run { tokens, handles := handles ++ defaultHandles }
  return (node, c.tokens)

/-- The one document of a stream; the inner option is none when the stream holds nothing. A first
document needs no start mark unless directives stand before it. -/
def document? (tokens : List Token) : Option (Option Node) := do
  if tokens.isEmpty then return none
  let (handles, rest) ← directives? false [] tokens
  let (node, rest) ←
    match rest with
    | .documentStart :: rest =>
      if isDocumentOver rest then pure (Node.empty, rest) else composeAll handles rest
    | rest =>
      if rest.length == tokens.length then composeAll handles rest else none
  guard (rest.all (· == .documentEnd))
  return some node

end FlatConfig.Yaml
