import FlatConfig.Yaml.Cursor

set_option autoImplicit false

namespace FlatConfig.Yaml

structure Gap where
  blanks : List Char := []
  breaks : List Char := []
  crossed : Bool := false
  escaped : Bool := false

namespace Gap

/-- One line feed is a space; of more the first is dropped. -/
def fold (g : Gap) : List Char :=
  if !g.crossed then g.blanks
  else if g.escaped then g.breaks
  else
    match g.breaks with
    | ['\n'] => [' ']
    | '\n' :: more => more
    | breaks => breaks

/-- The gap from here on. A tab left of the column `limit` is an error after a line end. -/
def scan (limit : Nat) (g : Gap) : Nat → Cursor → Option (Gap × Cursor)
  | 0, c => some (g, c)
  | fuel + 1, c =>
    match c.break?, c.peek? with
    | some (b, next), _ =>
      scan limit { g with blanks := [], breaks := g.breaks ++ [b], crossed := true } fuel next
    | none, some blank =>
      if !isBlank blank then some (g, c)
      else if !g.crossed then scan limit { g with blanks := g.blanks ++ [blank] } fuel (c.skip 1)
      else if blank == '\t' && c.column < limit then none
      else scan limit g fuel (c.skip 1)
    | none, none => some (g, c)

end Gap

def isFlowIndicator (c : Char) : Bool := c == ',' || c == '[' || c == ']' || c == '{' || c == '}'

def plainWord (inFlow : Bool) : Nat → Cursor → Option (List Char × Cursor)
  | 0, c => some ([], c)
  | fuel + 1, c =>
    match c.peek? with
    | none => some ([], c)
    | some ch =>
      let next := c.ahead? 1
      if isSpaceOrEnd (some ch) then some ([], c)
      else if inFlow && ch == ':' && next.any (fun n => n == '?' || isFlowIndicator n) then none
      else if (ch == ':' && isSpaceOrEnd next) || (inFlow && isFlowIndicator ch) then some ([], c)
      else do
        let (word, c) ← plainWord inFlow fuel (c.skip 1)
        return (ch :: word, c)

/-- What a plain scalar reads; `ended` tells that its last line is over. -/
structure PlainText where
  text : List Char
  ended : Bool
  next : Cursor

/-- The words of a plain scalar after the gap `g`. In a block its lines reach at least the column
`indent`. -/
def plainFrom (inFlow : Bool) (indent : Nat) (g : Gap) : Nat → Cursor → Option PlainText
  | 0, _ => none
  | fuel + 1, c =>
    if c.isAtDocumentMark || c.peek? == some '#' then some ⟨[], g.crossed, c⟩
    else do
      let (word, c) ← plainWord inFlow (c.left + 1) c
      if word.isEmpty then return ⟨[], g.crossed, c⟩
      else if !(isSpaceOrEnd c.peek?) || c.rest.isEmpty then return ⟨g.fold ++ word, false, c⟩
      else
        let (gap, c) ← Gap.scan indent {} (c.left + 1) c
        if !inFlow && c.column < indent then return ⟨g.fold ++ word, gap.crossed, c⟩
        else
          let more ← plainFrom inFlow indent gap fuel c
          return { more with text := g.fold ++ word ++ more.text }

def plainText (inFlow : Bool) (indent : Nat) (c : Cursor) : Option PlainText :=
  plainFrom inFlow indent {} (c.left + 1) c

def hexValue? (c : Char) : Option Nat :=
  if c.isDigit then some (c.toNat - '0'.toNat)
  else if 'a' ≤ c ∧ c ≤ 'f' then some (c.toNat - 'a'.toNat + 10)
  else if 'A' ≤ c ∧ c ≤ 'F' then some (c.toNat - 'A'.toNat + 10)
  else none

def simpleEscape? (c : Char) : Option Char :=
  match c with
  | '0' => some '\x00'
  | 'a' => some '\x07'
  | 'b' => some '\x08'
  | 't' | '\t' => some '\t'
  | 'n' => some '\n'
  | 'v' => some '\x0b'
  | 'f' => some '\x0c'
  | 'r' => some '\r'
  | 'e' => some '\x1b'
  | ' ' | '"' | '/' | '\\' => some c
  | 'N' => some '\u0085'
  | '_' => some '\u00a0'
  | 'L' => some '\u2028'
  | 'P' => some '\u2029'
  | _ => none

def escapeWidth? : Char → Option Nat
  | 'x' => some 2
  | 'u' => some 4
  | 'U' => some 8
  | _ => none

def codePoint? (width : Nat) (digits : List Char) : Option Char := do
  guard (digits.length = width)
  let n ← digits.foldlM (fun n d => (hexValue? d).map (16 * n + ·)) 0
  guard (n.isValidChar)
  return Char.ofNat n

def escape? (c : Cursor) : Option (Char × Cursor) := do
  let mark ← c.peek?
  match escapeWidth? mark with
  | some width =>
    let ch ← codePoint? width ((c.rest.drop 1).take width)
    return (ch, c.skip (1 + width))
  | none =>
    let ch ← simpleEscape? mark
    return (ch, c.skip 1)

/-- The characters up to a blank, the closing quote or an escaped line end, which is told by the
second part. -/
def quotedWord (single : Bool) : Nat → Cursor → Option (List Char × Bool × Cursor)
  | 0, c => some ([], false, c)
  | fuel + 1, c =>
    match c.peek? with
    | none => some ([], false, c)
    | some ch =>
      let next := c.ahead? 1
      if isSpaceOrEnd (some ch) then some ([], false, c)
      else if single && ch == '\'' && next == some '\'' then do
        let (word, escaped, c) ← quotedWord single fuel (c.skip 2)
        return ('\'' :: word, escaped, c)
      else if ch == (if single then '\'' else '"') then some ([], false, c)
      else if !single && ch == '\\' then
        match (c.skip 1).break? with
        | some (_, c) => some ([], true, c)
        | none => do
          let (ch, c) ← escape? (c.skip 1)
          let (word, escaped, c) ← quotedWord single fuel c
          return (ch :: word, escaped, c)
      else do
        let (word, escaped, c) ← quotedWord single fuel (c.skip 1)
        return (ch :: word, escaped, c)

def quotedFrom (single : Bool) : Nat → Cursor → Option (List Char × Cursor)
  | 0, _ => none
  | fuel + 1, c => do
    guard !(c.isAtDocumentMark || c.rest.isEmpty)
    let (word, escaped, c) ← quotedWord single (c.left + 1) c
    if !escaped && c.peek? == some (if single then '\'' else '"') then return (word, c.skip 1)
    else
      let (gap, c) ← Gap.scan 0 { crossed := escaped, escaped } (c.left + 1) c
      let (more, c) ← quotedFrom single fuel c
      return (word ++ gap.fold ++ more, c)

def quotedText (single : Bool) (c : Cursor) : Option (List Char × Cursor) :=
  quotedFrom single (c.left + 1) (c.skip 1)

inductive Chomping where
  | strip
  | clip
  | keep
  deriving DecidableEq, Repr

def Chomping.ofMark? : Option Char → Option Chomping
  | some '-' => some .strip
  | some '+' => some .keep
  | _ => none

def increment? (c : Cursor) : Option (Option Nat × Cursor) :=
  match c.peek? with
  | some d =>
    if d == '0' then none
    else if d.isDigit then some (some (d.toNat - '0'.toNat), c.skip 1)
    else some (none, c)
  | none => some (none, c)

def blockHeader? (c : Cursor) : Option (Chomping × Option Nat × Cursor) :=
  match Chomping.ofMark? c.peek? with
  | some chomping => do
    let (increment, c) ← increment? (c.skip 1)
    return (chomping, increment, c)
  | none => do
    let (increment, c) ← increment? c
    match increment.bind fun _ => Chomping.ofMark? c.peek? with
    | some chomping => return (chomping, increment, c.skip 1)
    | none => return (.clip, increment, c)

/-- Blank lines in front of a line of a block. While the indentation is not known, all spaces count
and the widest column reached is given back. -/
def blockBreaks (indent : Option Nat) (widest : Nat) :
    Nat → Cursor → Option (List Char × Nat × Cursor)
  | 0, c => some ([], widest, c)
  | fuel + 1, c =>
    let inside (c : Cursor) := indent.all (c.column < ·)
    let spaces := (c.rest.takeWhile (· == ' ')).length
    let c := c.skip (match indent with
      | some n => min spaces (n - c.column)
      | none => spaces)
    let widest := max widest c.column
    if inside c && c.peek? == some '\t' then none
    else
      match c.break? with
      | some (b, next) => do
        let (breaks, widest, c) ← blockBreaks indent widest fuel next
        return (b :: breaks, widest, c)
      | none => some ([], widest, c)

structure LineEnd where
  mark : List Char
  blank : Bool

/-- The lines of a block from here on. `ending` is the end of the line before, `breaks` are the
blank lines after it. The result has the text and, apart, the breaks at the end. -/
def blockLines (literal : Bool) (indent : Nat) (ending : LineEnd) (breaks : List Char) :
    Nat → Cursor → Option (List Char × List Char × List Char × Cursor)
  | 0, c => some ([], ending.mark, breaks, c)
  | fuel + 1, c =>
    if c.column != indent || c.rest.isEmpty then some ([], ending.mark, breaks, c)
    else do
      let blank := c.peek?.any isBlank
      let joint :=
        if !literal && ending.mark == ['\n'] && !ending.blank && !blank then
          if breaks.isEmpty then [' '] else breaks
        else ending.mark ++ breaks
      let (line, c) := c.takeWhile (!isBreak ·)
      let (mark, c) := match c.break? with
        | some (b, c) => ([b], c)
        | none => ([], c)
      let (breaks, _, c) ← blockBreaks (some indent) 0 (c.left + 1) c
      let (more, mark, breaks, c) ← blockLines literal indent ⟨mark, blank⟩ breaks fuel c
      return (joint ++ line ++ more, mark, breaks, c)

def blockText (literal : Bool) (parent : Option Nat) (c : Cursor) : Option (List Char × Cursor) := do
  let (chomping, increment, c) ← blockHeader? (c.skip 1)
  let c ← c.endOfLine?
  let known := increment.map (parent.getD 0 + ·)
  let (breaks, widest, c) ← blockBreaks known 0 (c.left + 1) c
  let least := max 1 ((parent.map (· + 1)).getD 0)
  let indent := known.getD (max widest least)
  let (text, mark, breaks, c) ←
    blockLines literal indent ⟨[], false⟩ breaks (c.left + 1) c
  match chomping with
  | .strip => return (text, c)
  | .clip => return (text ++ mark, c)
  | .keep => return (text ++ mark ++ breaks, c)

end FlatConfig.Yaml
