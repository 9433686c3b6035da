import FlatConfig.Yaml.ScalarText
import FlatConfig.Yaml.Token

/-!
Cutting a YAML text into tokens.

A key needs no mark of its own, so the lexer remembers where one may have begun. When a `:` follows
on the same line and at most 1024 bytes on, the key token goes in there, together with the
start of a block mapping where the column is a new one.
-/

set_option autoImplicit false

namespace FlatConfig.Yaml

/-- A place where a key may have begun. -/
structure PendingKey where
  place : Nat
  /-- In a block, at the column of the mapping, nothing but a key may stand here. -/
  required : Bool
  index : Nat
  line : Nat
  column : Nat

structure Lexer where
  cursor : Cursor
  tokens : Array Token := #[]
  columns : List Nat := []
  pending : Option PendingKey := none
  outer : List (Option PendingKey) := []
  keyAllowed : Bool := true

namespace Lexer

def inFlow (l : Lexer) : Bool := !l.outer.isEmpty

def push (l : Lexer) (t : Token) : Lexer := { l with tokens := l.tokens.push t }

def skip (l : Lexer) (n : Nat) : Lexer := { l with cursor := l.cursor.skip n }

def isDeeper (l : Lexer) (column : Nat) : Bool := l.columns.head?.all (· < column)

/-- Opens a block collection unless one is open in this column; `place` counts the tokens before
it. -/
def openBlock (l : Lexer) (column place : Nat) (t : Token) : Lexer :=
  if l.inFlow || !l.isDeeper column then l
  else
    { l with
      columns := column :: l.columns
      tokens := l.tokens.insertIdxIfInBounds place t }

def openBlockHere (l : Lexer) (t : Token) : Lexer :=
  l.openBlock l.cursor.column l.tokens.size t

def closeBlocks (keep : Nat → Bool) (l : Lexer) : Lexer :=
  if l.inFlow then l
  else
    let closed := l.columns.takeWhile (!keep ·)
    { l with
      columns := l.columns.dropWhile (!keep ·)
      tokens := l.tokens ++ closed.map fun _ => Token.blockEnd }

def dropKey (l : Lexer) : Option Lexer :=
  if l.pending.any (·.required) then none else some { l with pending := none }

def saveKey (l : Lexer) : Option Lexer := do
  if !l.keyAllowed then return l
  let l ← l.dropKey
  let c := l.cursor
  return { l with
    pending := some
      { place := l.tokens.size
        required := !l.inFlow && l.columns.head? == some c.column
        index := c.index
        line := c.line
        column := c.column } }

/-- A key ends on its line and within 1024 bytes. -/
def isStale (c : Cursor) (k : PendingKey) : Bool := k.line < c.line || k.index + 1024 < c.index

def dropStale (l : Lexer) : Option Lexer :=
  let stale (k : PendingKey) := isStale l.cursor k
  if (l.pending :: l.outer).any fun k => k.any fun k => stale k && k.required then none
  else
    some { l with
      pending := l.pending.filter (!stale ·)
      outer := l.outer.map (·.filter (!stale ·)) }

/-- Past blanks, comments and line ends. In a block a line end allows a key, and a tab is no blank
where a key is allowed. -/
def skipSpace : Nat → Lexer → Lexer
  | 0, l => l
  | fuel + 1, l =>
    let c := l.cursor
    let c := if c.column == 0 && c.peek? == some '\ufeff' then c.skip 1 else c
    let tabs := l.inFlow || !l.keyAllowed
    let c := (c.skipWhile fun ch => ch == ' ' || (tabs && ch == '\t')).skipComment
    match c.break? with
    | some (_, c) => skipSpace fuel { l with cursor := c, keyAllowed := l.keyAllowed || !l.inFlow }
    | none => { l with cursor := c }

def word (c : Cursor) : String × Cursor :=
  let (w, c) := c.takeWhile isWord
  (String.ofList w, c)

def versionNumber? (c : Cursor) : Option (Nat × Cursor) := do
  let (digits, c) := c.takeWhile Char.isDigit
  guard (!digits.isEmpty && digits.length ≤ 9)
  return (digits.foldl (fun n d => 10 * n + (d.toNat - '0'.toNat)) 0, c)

def uriOctet? (c : Cursor) : Option (UInt8 × Cursor) := do
  guard (c.peek? == some '%')
  let high ← (c.ahead? 1).bind hexValue?
  let low ← (c.ahead? 2).bind hexValue?
  return ((16 * high + low).toUInt8, c.skip 3)

def uriContinuation : Nat → Cursor → Option (Octets × Cursor)
  | 0, c => some ([], c)
  | count + 1, c => do
    let (octet, c) ← uriOctet? c
    guard (octet.toNat / 0x40 == 2)
    let (more, c) ← uriContinuation count c
    return (octet :: more, c)

def continuationCount? (octet : UInt8) : Option Nat :=
  let n := octet.toNat
  if n < 0x80 then some 0
  else if n / 0x20 == 6 then some 1
  else if n / 0x10 == 14 then some 2
  else if n / 0x08 == 30 then some 3
  else none

/-- As many percent escapes as the first one asks for. Whether they spell a character is not
looked at. -/
def uriEscape? (c : Cursor) : Option (Octets × Cursor) := do
  let (octet, c) ← uriOctet? c
  let (more, c) ← uriContinuation (← continuationCount? octet) c
  return (octet :: more, c)

def uriMarks : List Char := ";/?:@&=+$.!~*'()".toList

def isUriChar (verbatim : Bool) (c : Char) : Bool :=
  isWord c || uriMarks.contains c || (verbatim && (c == ',' || c == '[' || c == ']'))

def uriChars (verbatim : Bool) : Nat → Cursor → Option (Octets × Cursor)
  | 0, c => some ([], c)
  | fuel + 1, c =>
    match c.peek? with
    | none => some ([], c)
    | some ch =>
      if ch == '%' then do
        let (escaped, c) ← uriEscape? c
        let (more, c) ← uriChars verbatim fuel c
        return (escaped ++ more, c)
      else if isUriChar verbatim ch then do
        let (more, c) ← uriChars verbatim fuel (c.skip 1)
        return (ch.toNat.toUInt8 :: more, c)
      else some ([], c)

def uri (verbatim : Bool) (c : Cursor) : Option (Octets × Cursor) :=
  uriChars verbatim (c.left + 1) c

/-- A part of a tag ends before its first zero. -/
def upToZero (text : Octets) : Octets := text.takeWhile (· != 0)

def handle? (c : Cursor) : Option (List Char × Cursor) := do
  guard (c.peek? == some '!')
  let (w, c) := (c.skip 1).takeWhile isWord
  if c.peek? == some '!' then return ('!' :: w ++ ['!'], c.skip 1)
  else return ('!' :: w, c)

def isHandle (h : List Char) : Bool := h.length ≥ 2 && h.getLast? == some '!'

def directive? (c : Cursor) : Option (Token × Cursor) := do
  let (name, c) := word (c.skip 1)
  guard (isSpaceOrEnd c.peek?)
  let c := c.skipWhile isBlank
  let (token, c) ←
    if name == "YAML" then do
      let (major, c) ← versionNumber? c
      guard (c.peek? == some '.')
      let (minor, c) ← versionNumber? (c.skip 1)
      pure (Token.versionDirective major minor, c)
    else if name == "TAG" then do
      let (h, c) ← handle? c
      guard (isHandle h || h == ['!'])
      guard (c.peek?.any isBlank)
      let (expansion, c) ← uri true (c.skipWhile isBlank)
      guard (!expansion.isEmpty && isSpaceOrEnd c.peek?)
      pure (Token.tagDirective (String.ofList h) (upToZero expansion), c)
    else none
  let c ← c.endOfLine?
  return (token, c)

def isAfterAnchor (c : Cursor) : Bool :=
  isSpaceOrEnd c.peek? || c.peek?.any ("?:,]\x7d%@`".toList.contains ·)

def anchor? (make : String → Token) (c : Cursor) : Option (Token × Cursor) := do
  let (name, c) := word (c.skip 1)
  guard (name != "" && isAfterAnchor c)
  return (make name, c)

/-- A tag is verbatim, or a handle with a suffix, or a suffix of the primary handle. The tag `!`
alone has no handle. -/
def tagParts? (c : Cursor) : Option (String × Octets × Cursor) := do
  if c.ahead? 1 == some '<' then
    let (suffix, c) ← uri true (c.skip 2)
    guard (!suffix.isEmpty && c.peek? == some '>')
    return ("", upToZero suffix, c.skip 1)
  else
    let (h, c) ← handle? c
    if isHandle h then
      let (suffix, c) ← uri false c
      guard !suffix.isEmpty
      return (String.ofList h, upToZero suffix, c)
    else
      let (more, c) ← uri false c
      let suffix := upToZero (octets (String.ofList (h.drop 1)) ++ more)
      if suffix.isEmpty then return ("", octets "!", c) else return ("!", suffix, c)

def tag? (inFlow : Bool) (c : Cursor) : Option (Token × Cursor) := do
  let (h, suffix, c) ← tagParts? c
  guard (isSpaceOrEnd c.peek? || (inFlow && c.peek? == some ','))
  return (.tag h suffix, c)

def take (l : Lexer) (found : Option (Token × Cursor)) : Option Lexer :=
  found.map fun (t, c) => { l.push t with cursor := c }

def closeAll (l : Lexer) : Option Lexer := do
  let l ← (l.closeBlocks fun _ => false).dropKey
  return { l with keyAllowed := false }

def documentMark (l : Lexer) (t : Token) : Option Lexer := do
  let l ← l.closeAll
  return (l.push t).skip 3

def openFlow (l : Lexer) (t : Token) : Option Lexer := do
  let l ← l.saveKey
  return ({ l with outer := l.pending :: l.outer, pending := none, keyAllowed := true }.push t).skip 1

def closeFlow (l : Lexer) (t : Token) : Option Lexer := do
  let l ← l.dropKey
  let l := match l.outer with
    | pending :: outer => { l with pending, outer }
    | [] => l
  return ({ l with keyAllowed := false }.push t).skip 1

def flowEntry (l : Lexer) : Option Lexer := do
  let l ← l.dropKey
  return ({ l with keyAllowed := true }.push .flowEntry).skip 1

def blockEntry (l : Lexer) : Option Lexer := do
  guard (l.inFlow || l.keyAllowed)
  let l ← (l.openBlockHere .blockSequenceStart).dropKey
  return ({ l with keyAllowed := true }.push .blockEntry).skip 1

def keyMark (l : Lexer) : Option Lexer := do
  guard (l.inFlow || l.keyAllowed)
  let l ← (l.openBlockHere .blockMappingStart).dropKey
  return ({ l with keyAllowed := !l.inFlow }.push .key).skip 1

def valueMark (l : Lexer) : Option Lexer :=
  match l.pending with
  | some k =>
    let l := { l with tokens := l.tokens.insertIdxIfInBounds k.place .key, pending := none }
    let l := l.openBlock k.column k.place .blockMappingStart
    some (({ l with keyAllowed := false }.push .value).skip 1)
  | none => do
    guard (l.inFlow || l.keyAllowed)
    let l := l.openBlockHere .blockMappingStart
    return ({ l with keyAllowed := !l.inFlow }.push .value).skip 1

def keyPart (l : Lexer) (read : Cursor → Option (Token × Cursor)) : Option Lexer := do
  let l ← l.saveKey
  { l with keyAllowed := false }.take (read l.cursor)

def quoted? (single : Bool) (c : Cursor) : Option (Token × Cursor) := do
  let (text, c) ← quotedText single c
  return (.scalar (String.ofList text) false, c)

def blockScalar (l : Lexer) (literal : Bool) : Option Lexer := do
  let l ← l.dropKey
  let (text, c) ← blockText literal l.columns.head? l.cursor
  return { l.push (.scalar (String.ofList text) false) with keyAllowed := true, cursor := c }

def plainScalar (l : Lexer) : Option Lexer := do
  let l ← l.saveKey
  let indent := (l.columns.head?.map (· + 1)).getD 0
  let plain ← plainText l.inFlow indent l.cursor
  return { l.push (.scalar (String.ofList plain.text) true) with
    keyAllowed := plain.ended, cursor := plain.next }

def indicators : List Char := "-?:,[]\x7b\x7d#&*!|>'\"%@`".toList

def isPlainStart (inFlow : Bool) (ch : Char) (next : Option Char) : Bool :=
  !(isSpaceOrEnd (some ch) || indicators.contains ch) || (ch == '-' && !next.any isBlank) ||
    (!inFlow && (ch == '?' || ch == ':') && !isSpaceOrEnd next)

def scan (l : Lexer) (ch : Char) : Option Lexer :=
  let c := l.cursor
  let next := c.ahead? 1
  if c.column == 0 && ch == '%' then do
    let l ← l.closeAll
    l.take (directive? c)
  else if c.isDocumentMark '-' then l.documentMark .documentStart
  else if c.isDocumentMark '.' then l.documentMark .documentEnd
  else if ch == '[' then l.openFlow .flowSequenceStart
  else if ch == '{' then l.openFlow .flowMappingStart
  else if ch == ']' then l.closeFlow .flowSequenceEnd
  else if ch == '}' then l.closeFlow .flowMappingEnd
  else if ch == ',' then l.flowEntry
  else if ch == '-' && isSpaceOrEnd next then l.blockEntry
  else if ch == '?' && (l.inFlow || isSpaceOrEnd next) then l.keyMark
  else if ch == ':' && (l.inFlow || isSpaceOrEnd next) then l.valueMark
  else if ch == '*' then l.keyPart (anchor? .alias)
  else if ch == '&' then l.keyPart (anchor? .anchor)
  else if ch == '!' then l.keyPart (tag? l.inFlow)
  else if ch == '|' && !l.inFlow then l.blockScalar true
  else if ch == '>' && !l.inFlow then l.blockScalar false
  else if ch == '\'' then l.keyPart (quoted? true)
  else if ch == '"' then l.keyPart (quoted? false)
  else if isPlainStart l.inFlow ch next then l.plainScalar
  else none

def finish (l : Lexer) : Option (List Token) := do
  let l ← (l.closeBlocks fun _ => false).dropKey
  return l.tokens.toList

def run : Nat → Lexer → Option (List Token)
  | 0, _ => none
  | fuel + 1, l => do
    let l ← (skipSpace (l.cursor.left + 1) l).dropStale
    let l := l.closeBlocks (· ≤ l.cursor.column)
    match l.cursor.peek? with
    | none => l.finish
    | some ch => run fuel (← l.scan ch)

end Lexer

def tokens? (text : String) : Option (List Token) := do
  let cs := text.toList
  guard (cs.all isAllowed)
  Lexer.run (cs.length + 1) { cursor := .start cs }

end FlatConfig.Yaml
