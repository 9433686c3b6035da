import Mathlib.Data.List.TakeWhile
import Mathlib.Data.Option.Basic
import FlatConfig.Proofs.Match
import FlatConfig.Template

/-!
The words of the template language and what the searches of a rendering do on them.

A template is plain text and marks, a mark being double braces around text without braces. No search
begins inside either of them, so what a rendering does is decided at the marks.
-/

set_option autoImplicit false

namespace FlatConfig.Template

/-- No double braces anywhere and no brace at either end. -/
structure PlainText where
  chars : List Char
  noOpening : ¬ opening <:+: chars
  noClosing : ¬ closing <:+: chars
  first : ∀ c ∈ chars.head?, c ≠ '{' ∧ c ≠ '}'
  last : ∀ c ∈ chars.getLast?, c ≠ '{' ∧ c ≠ '}'
  deriving DecidableEq

structure Name where
  chars : List Char
  nonempty : chars ≠ []
  braceless : ∀ c ∈ chars, c ≠ '{' ∧ c ≠ '}'
  first : ∀ c ∈ chars.head?, Text.isBlank c = false
  last : ∀ c ∈ chars.getLast?, Text.isBlank c = false
  unmarked : ∀ c ∈ chars.head?, c ≠ '#' ∧ c ≠ '/'
  deriving DecidableEq

structure Blanks where
  chars : List Char
  blank : ∀ c ∈ chars, Text.isAsciiBlank c = true
  deriving DecidableEq

structure Marked where
  chars : List Char
  nonempty : chars ≠ []
  braceless : ∀ c ∈ chars, c ≠ '{' ∧ c ≠ '}'
  deriving DecidableEq

def Marked.print (m : Marked) : List Char := opening ++ m.chars ++ closing

theorem Blanks.braceless (b : Blanks) : ∀ c ∈ b.chars, c ≠ '{' ∧ c ≠ '}' := by
  intro c hc
  constructor <;> rintro rfl <;> exact absurd (b.blank _ hc) (by decide)

theorem Blanks.isBlank (b : Blanks) : ∀ c ∈ b.chars, Text.isBlank c = true :=
  fun c hc => Text.isBlank_of_isAsciiBlank (b.blank c hc)

def Blanks.none : Blanks := ⟨[], by simp⟩

def Blanks.leading (text : List Char) : Blanks :=
  ⟨text.takeWhile Text.isAsciiBlank, fun _ hc => List.mem_takeWhile_imp hc⟩

theorem Name.exists_cons (n : Name) : ∃ c text, n.chars = c :: text ∧
    Text.isBlank c = false ∧ Text.isAsciiBlank c = false ∧ c ≠ '#' ∧ c ≠ '/' := by
  obtain ⟨c, text, hchars⟩ := List.exists_cons_of_ne_nil n.nonempty
  have hhead : c ∈ n.chars.head? := by simp [hchars]
  have hblank := n.first c hhead
  have hascii : Text.isAsciiBlank c = false := by
    cases hc : Text.isAsciiBlank c with
    | false => rfl
    | true => rw [Text.isBlank_of_isAsciiBlank hc] at hblank; cases hblank
  exact ⟨c, text, hchars, hblank, hascii, n.unmarked c hhead⟩

structure Padded where
  before : Blanks
  name : Name
  after : Blanks
  deriving DecidableEq

def Padded.chars (p : Padded) : List Char := p.before.chars ++ p.name.chars ++ p.after.chars

theorem Padded.braceless (p : Padded) : ∀ c ∈ p.chars, c ≠ '{' ∧ c ≠ '}' := by
  intro c hc
  simp only [Padded.chars, List.mem_append] at hc
  obtain (hc | hc) | hc := hc
  · exact p.before.braceless c hc
  · exact p.name.braceless c hc
  · exact p.after.braceless c hc

theorem Padded.trim_chars (p : Padded) : Text.trim p.chars = p.name.chars := by
  obtain ⟨c, text, hchars, hblank, -⟩ := p.name.exists_cons
  have hfront : p.chars.dropWhile Text.isBlank = p.name.chars ++ p.after.chars := by
    rw [Padded.chars, List.append_assoc, List.dropWhile_append_of_pos p.before.isBlank, hchars,
      List.cons_append, List.dropWhile_cons_of_neg (by simp [hblank])]
  have hlast : (p.name.chars.reverse.dropWhile Text.isBlank) = p.name.chars.reverse := by
    cases hreverse : p.name.chars.reverse with
    | nil => rfl
    | cons d rest =>
      have hd : Text.isBlank d = false := p.name.last d (by
        rw [← List.head?_reverse, hreverse]
        rfl)
      rw [List.dropWhile_cons_of_neg (by simp [hd])]
  have hback : ∀ c ∈ p.after.chars.reverse, Text.isBlank c = true := by
    intro c hc
    exact p.after.isBlank c (List.mem_reverse.mp hc)
  rw [Text.trim, hfront, List.reverse_append, List.dropWhile_append_of_pos hback, hlast,
    List.reverse_reverse]

theorem Name.eq_of_append_blanks {m n : Name} {a b : Blanks}
    (h : m.chars ++ a.chars = n.chars ++ b.chars) : m = n := by
  have hchars : m.chars = n.chars := by
    rw [← (Padded.mk .none m a).trim_chars, ← (Padded.mk .none n b).trim_chars]
    exact congrArg Text.trim h
  obtain ⟨⟩ := m
  obtain ⟨⟩ := n
  cases hchars
  rfl

def Padded.mark (p : Padded) : Marked where
  chars := p.chars
  nonempty := by simp [Padded.chars, p.name.nonempty]
  braceless := p.braceless

/-- The searches of a rendering, each for something that begins with two braces. -/
def NeedsOpening {β : Type} (find : List Char → Option β) : Prop :=
  ∀ text, Text.strip? opening text = none → find text = none

theorem needsOpening_placeholder? (key : List Char) : NeedsOpening (placeholder? key) := by
  intro text h
  rw [placeholder?, h]
  rfl

theorem needsOpening_strip? (back : List Char) :
    NeedsOpening (Text.strip? (opening ++ back)) := by
  intro text h
  exact Text.strip?_append_left h

theorem needsOpening_block? : NeedsOpening block? := by
  intro text h
  have hstrip : Text.strip? blockOpening text = none := needsOpening_strip? ['#', 'i', 'f'] text h
  rw [block?, hstrip]
  rfl

theorem strip?_opening_of_ne {c : Char} (hc : c ≠ '{') (text : List Char) :
    Text.strip? opening (c :: text) = none := by
  simp [opening, Text.strip?, hc.symm]

theorem strip?_opening_of_second {c : Char} (hc : c ≠ '{') (text : List Char) :
    Text.strip? opening ('{' :: c :: text) = none := by
  simp [opening, Text.strip?, hc.symm]

section
variable {β : Type} {find : List Char → Option β}

theorem misses_of_single (hfind : NeedsOpening find) {text : List Char}
    (hopening : ¬ opening <:+: text) (hlast : ∀ c ∈ text.getLast?, c ≠ '{') (rest : List Char) :
    Text.Misses find rest text := by
  induction text with
  | nil => trivial
  | cons c text ih =>
    have hinfix : ¬ opening <:+: text := fun h => hopening (List.infix_cons h)
    have htail : ∀ d ∈ text.getLast?, d ≠ '{' := by
      intro d hd
      cases text with
      | nil => cases hd
      | cons e text => exact hlast d (by rwa [List.getLast?_cons_cons])
    refine ⟨hfind _ ?_, ih hinfix htail⟩
    by_cases hc : c = '{'
    · subst hc
      cases text with
      | nil => exact absurd rfl (hlast '{' rfl)
      | cons d text =>
        have hd : d ≠ '{' := by
          rintro rfl
          exact hopening ⟨[], text, rfl⟩
        exact strip?_opening_of_second hd (text ++ rest)
    · exact strip?_opening_of_ne hc (text ++ rest)

theorem misses_plainText (hfind : NeedsOpening find) (t : PlainText) (rest : List Char) :
    Text.Misses find rest t.chars :=
  misses_of_single hfind t.noOpening (fun c hc => (t.last c hc).1) rest

theorem misses_braceless (hfind : NeedsOpening find) {text : List Char}
    (h : ∀ c ∈ text, c ≠ '{') (rest : List Char) : Text.Misses find rest text := by
  induction text with
  | nil => trivial
  | cons c text ih =>
    obtain ⟨hc, htext⟩ := List.forall_mem_cons.mp h
    exact ⟨hfind _ (strip?_opening_of_ne hc (text ++ rest)), ih htext⟩

theorem misses_mark (hfind : NeedsOpening find) (m : Marked) {rest : List Char}
    (hmark : find (m.print ++ rest) = none) : Text.Misses find rest m.print := by
  obtain ⟨c, text, hchars⟩ := List.exists_cons_of_ne_nil m.nonempty
  have hc : c ≠ '{' := (m.braceless c (by simp [hchars])).1
  have hinner : ∀ d ∈ m.chars ++ closing, d ≠ '{' := by
    intro d hd
    obtain hd | hd := List.mem_append.mp hd
    · exact (m.braceless d hd).1
    · rintro rfl
      exact absurd hd (by decide)
  refine ⟨hmark, hfind _ ?_, misses_braceless hfind hinner rest⟩
  rw [hchars]
  exact strip?_opening_of_second hc (text ++ closing ++ rest)

end

section
variable (n : Name)

theorem closeAfter?_of_head_ne {c : Char} (hc : ∀ d ∈ n.chars.head?, d ≠ c) (text : List Char) :
    afterKey?.closeAfter? n.chars (c :: text) = none := by
  obtain ⟨d, key, hchars⟩ := List.exists_cons_of_ne_nil n.nonempty
  have hd : d ≠ c := hc d (by simp [hchars])
  rw [hchars, afterKey?.closeAfter?, Text.strip?, if_neg hd]
  rfl

theorem afterKey?_of_head_ne {c : Char} (hblank : Text.isAsciiBlank c = false)
    (hc : ∀ d ∈ n.chars.head?, d ≠ c) (text : List Char) :
    afterKey? n.chars (c :: text) = none := by
  simp [afterKey?, closeAfter?_of_head_ne n hc, hblank]

theorem afterKey?_blanks (b : Blanks) (text : List Char) :
    afterKey? n.chars (b.chars ++ text) = afterKey? n.chars text := by
  obtain ⟨d, key, hchars, -, hd, -⟩ := n.exists_cons
  obtain ⟨blanks, hblanks⟩ := b
  induction blanks with
  | nil => rfl
  | cons c blanks ih =>
    obtain ⟨hc, hblanks⟩ := List.forall_mem_cons.mp hblanks
    have hne : ∀ e ∈ n.chars.head?, e ≠ c := by
      rw [hchars]
      rintro e he rfl
      cases he
      rw [hd] at hc
      cases hc
    rw [List.cons_append, afterKey?, closeAfter?_of_head_ne n hne, if_pos hc]
    exact ih hblanks

theorem dropWhile_blanks_closing (b : Blanks) (rest : List Char) :
    (b.chars ++ (closing ++ rest)).dropWhile Text.isAsciiBlank = closing ++ rest := by
  rw [List.dropWhile_append_of_pos b.blank]
  rfl

theorem closeAfter?_eq_some_iff {key text rest : List Char} :
    afterKey?.closeAfter? key text = some rest ↔
      ∃ after : Blanks, text = key ++ (after.chars ++ (closing ++ rest)) := by
  rw [afterKey?.closeAfter?, Option.bind_eq_some_iff]
  constructor
  · rintro ⟨behind, hkey, hclose⟩
    rw [Text.strip?_eq_some] at hkey hclose
    refine ⟨.leading behind, ?_⟩
    rw [hkey, ← hclose]
    exact congrArg (key ++ ·) List.takeWhile_append_dropWhile.symm
  · rintro ⟨after, rfl⟩
    refine ⟨_, Text.strip?_append _ _, ?_⟩
    rw [dropWhile_blanks_closing, Text.strip?_append]

theorem closeAfter?_name (after : Blanks) (rest : List Char) :
    afterKey?.closeAfter? n.chars (n.chars ++ (after.chars ++ (closing ++ rest))) = some rest :=
  closeAfter?_eq_some_iff.mpr ⟨after, rfl⟩

theorem takeWhile_unclosed {text : List Char} (h : ∀ c ∈ text, c ≠ '}') (rest : List Char) :
    (text ++ (closing ++ rest)).takeWhile (· != '}') = text := by
  rw [List.takeWhile_append_of_pos (by simpa using h)]
  simp [closing]

theorem dropWhile_unclosed {text : List Char} (h : ∀ c ∈ text, c ≠ '}') (rest : List Char) :
    (text ++ (closing ++ rest)).dropWhile (· != '}') = closing ++ rest := by
  rw [List.dropWhile_append_of_pos (by simpa using h)]
  simp [closing]

/-- A name is read back from what stands before the closing braces. -/
theorem eq_of_closeAfter?_eq_some {m : Name} {after : Blanks} {rest found : List Char}
    (h : afterKey?.closeAfter? n.chars (m.chars ++ (after.chars ++ (closing ++ rest))) =
      some found) : m = n := by
  obtain ⟨blanks, htext⟩ := closeAfter?_eq_some_iff.mp h
  have hboth : m.chars ++ after.chars ++ (closing ++ rest) =
      n.chars ++ blanks.chars ++ (closing ++ found) := by
    rw [List.append_assoc, List.append_assoc, htext]
  have hwritten := takeWhile_unclosed
    (fun c hc => ((Padded.mk .none m after).braceless c hc).2) rest
  have hread := takeWhile_unclosed
    (fun c hc => ((Padded.mk .none n blanks).braceless c hc).2) found
  apply Name.eq_of_append_blanks
  calc m.chars ++ after.chars
      = (m.chars ++ after.chars ++ (closing ++ rest)).takeWhile (· != '}') := hwritten.symm
    _ = n.chars ++ blanks.chars := by rw [hboth]; exact hread

theorem placeholder?_mark (m : Marked) (rest : List Char) :
    placeholder? n.chars (m.print ++ rest) =
      (afterKey? n.chars (m.chars ++ (closing ++ rest))).map ((), ·) := by
  rw [placeholder?, Marked.print, List.append_assoc, List.append_assoc, Text.strip?_append]
  exact Option.map_eq_bind.symm

/-- A placeholder is found for its own name only. -/
theorem placeholder?_padded (p : Padded) (rest : List Char) :
    placeholder? n.chars (p.mark.print ++ rest) =
      if p.name = n then some ((), rest) else none := by
  obtain ⟨c, text, hchars, -, hascii, -⟩ := p.name.exists_cons
  have hinner : p.mark.chars ++ (closing ++ rest) =
      p.before.chars ++ (p.name.chars ++ (p.after.chars ++ (closing ++ rest))) := by
    simp [Padded.mark, Padded.chars]
  rw [placeholder?_mark, hinner, afterKey?_blanks]
  split
  case isTrue hname =>
    have hclose := closeAfter?_name n p.after rest
    rw [← hname] at hclose ⊢
    rw [hchars, List.cons_append] at hclose ⊢
    rw [afterKey?, hclose]
    rfl
  case isFalse hname =>
    have hclose : afterKey?.closeAfter? n.chars
        (p.name.chars ++ (p.after.chars ++ (closing ++ rest))) = none := by
      cases h : afterKey?.closeAfter? n.chars
          (p.name.chars ++ (p.after.chars ++ (closing ++ rest))) with
      | none => rfl
      | some found => exact absurd (eq_of_closeAfter?_eq_some n h) hname
    rw [hchars, List.cons_append] at hclose ⊢
    rw [afterKey?, hclose, if_neg (by simp [hascii])]
    rfl

theorem placeholder?_of_sign {sign : Char} (hsign : sign = '#' ∨ sign = '/') {m : Marked}
    (hm : m.chars.head? = some sign) (rest : List Char) :
    placeholder? n.chars (m.print ++ rest) = none := by
  obtain ⟨text, hchars⟩ := List.head?_eq_some_iff.mp hm
  have hblank : Text.isAsciiBlank sign = false := by
    obtain rfl | rfl := hsign <;> rfl
  have hhead : ∀ c ∈ n.chars.head?, c ≠ sign := by
    intro c hc
    obtain rfl | rfl := hsign
    · exact (n.unmarked c hc).1
    · exact (n.unmarked c hc).2
  rw [placeholder?_mark, hchars, List.cons_append, afterKey?_of_head_ne n hblank hhead]
  rfl

end

/-- The name a block asks for; a blank sets it apart from the word before it. -/
structure Condition extends Padded where
  separated : before.chars ≠ []
  deriving DecidableEq

def Condition.opener (c : Condition) : Marked where
  chars := '#' :: 'i' :: 'f' :: c.chars
  nonempty := by simp
  braceless := by simpa using c.braceless

def closer : Marked where
  chars := ['/', 'i', 'f']
  nonempty := by simp
  braceless := by simp

theorem Padded.head_unmarked (p : Padded) : ∀ c ∈ p.chars.head?, c ≠ '#' ∧ c ≠ '/' := by
  intro c hc
  cases hbefore : p.before.chars with
  | nil =>
    obtain ⟨d, text, hname, -⟩ := p.name.exists_cons
    rw [Padded.chars, hbefore, hname] at hc
    exact p.name.unmarked c (by rw [hname]; exact hc)
  | cons d blanks =>
    have hd := p.before.blank d (by simp [hbefore])
    rw [Padded.chars, hbefore] at hc
    cases hc
    constructor <;> rintro rfl <;> exact absurd hd (by decide)

theorem strip?_mark {sign : Char} {m : Marked} (hm : ∀ c ∈ m.chars.head?, c ≠ sign)
    (back rest : List Char) : Text.strip? (opening ++ sign :: back) (m.print ++ rest) = none := by
  obtain ⟨c, text, hchars⟩ := List.exists_cons_of_ne_nil m.nonempty
  have hc : sign ≠ c := (hm c (by simp [hchars])).symm
  rw [Marked.print, hchars]
  simp [opening, Text.strip?, hc]

theorem strip?_blockOpening_padded (p : Padded) (rest : List Char) :
    Text.strip? blockOpening (p.mark.print ++ rest) = none :=
  strip?_mark (fun c hc => (p.head_unmarked c hc).1) ['i', 'f'] rest

theorem block?_padded (p : Padded) (rest : List Char) : block? (p.mark.print ++ rest) = none := by
  rw [block?, strip?_blockOpening_padded]
  rfl

theorem strip?_blockClosing_padded (p : Padded) (rest : List Char) :
    Text.strip? blockClosing (p.mark.print ++ rest) = none :=
  strip?_mark (fun c hc => (p.head_unmarked c hc).2) ['i', 'f', '}', '}'] rest

theorem block?_eq_some_iff {text rest : List Char} {b : Block} : block? text = some (b, rest) ↔
    text = blockOpening ++ (b.condition ++ (closing ++ (b.body ++ (blockClosing ++ rest)))) ∧
      (b.condition.length ≥ 2 ∧ b.condition.head?.any Text.isAsciiBlank = true) ∧
      (∀ c ∈ b.condition, c ≠ '}') ∧
      Text.Misses (Text.strip? blockClosing) (blockClosing ++ rest) b.body := by
  constructor
  · intro h
    obtain ⟨behind, hopening, h⟩ := Option.bind_eq_some_iff.mp h
    obtain ⟨_, hguard, h⟩ := Option.bind_eq_some_iff.mp h
    obtain ⟨inner, hclosing, h⟩ := Option.bind_eq_some_iff.mp h
    obtain ⟨⟨body, found⟩, hcut, h⟩ := Option.bind_eq_some_iff.mp h
    obtain ⟨rfl, rfl⟩ := Prod.mk.inj (Option.some.inj h)
    obtain ⟨hinner, hmisses⟩ := Text.cut?_eq_some_iff.mp hcut
    rw [Text.strip?_eq_some] at hopening hclosing
    refine ⟨?_, ?_, fun c hc => by simpa using List.mem_takeWhile_imp hc, hmisses⟩
    · rw [hopening, ← hinner, ← hclosing]
      exact congrArg (blockOpening ++ ·) List.takeWhile_append_dropWhile.symm
    · simpa using (Option.guard_eq_some' ()).mp hguard
  · rintro ⟨rfl, hcondition, hunclosed, hbody⟩
    rw [block?, Text.strip?_append, Option.bind_eq_bind, Option.bind_some,
      takeWhile_unclosed hunclosed, dropWhile_unclosed hunclosed]
    refine Option.bind_eq_some_iff.mpr
      ⟨(), (Option.guard_eq_some' ()).mpr (by simpa using hcondition), ?_⟩
    refine Option.bind_eq_some_iff.mpr ⟨_, Text.strip?_append closing _, ?_⟩
    exact Option.bind_eq_some_iff.mpr ⟨_, Text.cut?_first hbody, rfl⟩

/-- A block goes from its opener to the first closing mark. -/
theorem block?_opener (c : Condition) {body rest : List Char}
    (hbody : Text.Misses (Text.strip? blockClosing) (blockClosing ++ rest) body) :
    block? (c.opener.print ++ (body ++ (blockClosing ++ rest))) =
      some (⟨c.chars, body⟩, rest) := by
  have hcondition : c.chars.length ≥ 2 ∧ c.chars.head?.any Text.isAsciiBlank = true := by
    obtain ⟨d, blanks, hbefore⟩ := List.exists_cons_of_ne_nil c.separated
    obtain ⟨e, text, hname, -⟩ := c.name.exists_cons
    have hd := c.before.blank d (by simp [hbefore])
    simp [Padded.chars, hbefore, hname, hd]
    omega
  refine block?_eq_some_iff.mpr ⟨?_, hcondition, fun d hd => (c.braceless d hd).2, hbody⟩
  simp [Marked.print, Condition.opener, opening, blockOpening]

theorem name_block (c : Condition) (body : List Char) :
    (Block.mk c.chars body).name = String.ofList c.name.chars := by
  rw [Block.name, c.trim_chars]

end FlatConfig.Template
