import FlatConfig.Proofs.Marks

/-!
The template language and its meaning.

A template is a sequence of plain text, placeholders and conditionals. Its meaning is given node by
node; a rendering instead works on the printed text, one parameter after the other and then the
blocks. Each of its passes is shown to act on the nodes.
-/

set_option autoImplicit false

namespace FlatConfig.Template

inductive Inline where
  | text (t : PlainText)
  | placeholder (p : Padded)
  deriving DecidableEq

inductive Node where
  | inline (i : Inline)
  | conditional (c : Condition) (body : List Inline)
  deriving DecidableEq

def Inline.print : Inline → List Char
  | .text t => t.chars
  | .placeholder p => p.mark.print

def printBody (body : List Inline) : List Char := body.flatMap Inline.print

def Node.print : Node → List Char
  | .inline i => i.print
  | .conditional c body => c.opener.print ++ (printBody body ++ closer.print)

def print (nodes : List Node) : List Char := nodes.flatMap Node.print

abbrev Values := List (Name × PlainText)

def Values.toParams (values : Values) : Params :=
  values.map fun (name, value) => (String.ofList name.chars, String.ofList value.chars)

/-- The condition of a name: it has a value other than the empty text and the word `false`. -/
def Values.holds (values : Values) (name : Name) : Bool :=
  match values.lookup name with
  | some value => value.chars != [] && value.chars != ['f', 'a', 'l', 's', 'e']
  | none => false

def Inline.evaluate (values : Values) : Inline → List Char
  | .text t => t.chars
  | .placeholder p =>
    match values.lookup p.name with
    | some value => value.chars
    | none => p.mark.print

/-- A placeholder takes its value from `placed`, and a conditional asks `values`. -/
def Node.evaluate (placed values : Values) : Node → List Char
  | .inline i => i.evaluate placed
  | .conditional c body => if values.holds c.name then body.flatMap (Inline.evaluate placed) else []

def evaluate (placed values : Values) (nodes : List Node) : List Char :=
  nodes.flatMap (Node.evaluate placed values)

def Values.searchable (values : Values) : Values :=
  values.filter fun entry => isSearchable entry.1.chars

def Inline.fill (name : Name) (value : PlainText) : Inline → Inline
  | .text t => .text t
  | .placeholder p => if p.name = name then .text value else .placeholder p

def Node.fill (name : Name) (value : PlainText) : Node → Node
  | .inline i => .inline (i.fill name value)
  | .conditional c body => .conditional c (body.map (Inline.fill name value))

section
variable (name : Name) (value : PlainText)

theorem substitute_plainText (t : PlainText) (rest : List Char) :
    substitute name.chars value.chars (t.chars ++ rest) =
      t.chars ++ substitute name.chars value.chars rest :=
  Text.replace_of_misses (misses_plainText (needsOpening_placeholder? name.chars) t rest)

theorem substitute_mark {m : Marked} {rest : List Char}
    (h : placeholder? name.chars (m.print ++ rest) = none) :
    substitute name.chars value.chars (m.print ++ rest) =
      m.print ++ substitute name.chars value.chars rest :=
  Text.replace_of_misses (misses_mark (needsOpening_placeholder? name.chars) m h)

theorem substitute_inline (i : Inline) (rest : List Char) :
    substitute name.chars value.chars (i.print ++ rest) =
      (i.fill name value).print ++ substitute name.chars value.chars rest := by
  cases i with
  | text t => exact substitute_plainText name value t rest
  | placeholder p =>
    have hfind := placeholder?_padded name p rest
    simp only [Inline.print, Inline.fill]
    split at hfind
    case isTrue hname =>
      rw [if_pos hname]
      exact Text.replace_of_found (List.append_ne_nil_of_left_ne_nil (by simp [opening]) _) hfind
    case isFalse hname =>
      rw [if_neg hname]
      exact substitute_mark name value hfind

theorem substitute_body (body : List Inline) (rest : List Char) :
    substitute name.chars value.chars (printBody body ++ rest) =
      printBody (body.map (Inline.fill name value)) ++ substitute name.chars value.chars rest := by
  induction body with
  | nil => rfl
  | cons i body ih =>
    simp only [printBody, List.flatMap_cons, List.map_cons, List.append_assoc] at ih ⊢
    rw [substitute_inline, ih]

theorem substitute_node (node : Node) (rest : List Char) :
    substitute name.chars value.chars (node.print ++ rest) =
      (node.fill name value).print ++ substitute name.chars value.chars rest := by
  cases node with
  | inline i => exact substitute_inline name value i rest
  | conditional c body =>
    have hopener := fun rest => substitute_mark name value
      (placeholder?_of_sign name (.inl rfl) (show c.opener.chars.head? = some '#' from rfl) rest)
    have hcloser := fun rest => substitute_mark name value
      (placeholder?_of_sign name (.inr rfl) (show closer.chars.head? = some '/' from rfl) rest)
    simp only [Node.print, Node.fill, List.append_assoc]
    rw [hopener, substitute_body, hcloser]

theorem substitute_print (nodes : List Node) :
    substitute name.chars value.chars (print nodes) = print (nodes.map (Node.fill name value)) := by
  induction nodes with
  | nil => rfl
  | cons node nodes ih =>
    simp only [print, List.flatMap_cons, List.map_cons] at ih ⊢
    rw [substitute_node, ih]

end

def Inline.fillAll (values : Values) (i : Inline) : Inline :=
  values.foldl (fun i (name, value) => i.fill name value) i

def Node.fillAll (values : Values) : Node → Node
  | .inline i => .inline (i.fillAll values)
  | .conditional c body => .conditional c (body.map (Inline.fillAll values))

theorem Node.fillAll_nil (node : Node) : node.fillAll [] = node := by
  cases node with
  | inline i => rfl
  | conditional c body => exact congrArg (Node.conditional c) (List.map_id body)

theorem Node.fillAll_fill (name : Name) (value : PlainText) (values : Values) (node : Node) :
    (node.fill name value).fillAll values = node.fillAll ((name, value) :: values) := by
  cases node with
  | inline i => rfl
  | conditional c body =>
    simp only [Node.fill, Node.fillAll, List.map_map]
    rfl

theorem substituteAll_cons (name : Name) (value : PlainText) (values : Values)
    (text : List Char) :
    substituteAll (Values.toParams ((name, value) :: values)) text =
      substituteAll values.toParams
        (if isSearchable name.chars then substitute name.chars value.chars text else text) := by
  simp [substituteAll, Values.toParams]

theorem substituteAll_print (values : Values) (nodes : List Node) :
    substituteAll values.toParams (print nodes) =
      print (nodes.map (Node.fillAll values.searchable)) := by
  induction values generalizing nodes with
  | nil =>
    have hnodes : nodes.map (Node.fillAll []) = nodes :=
      List.map_id'' Node.fillAll_nil nodes
    rw [Values.searchable, List.filter_nil, hnodes]
    rfl
  | cons entry values ih =>
    obtain ⟨name, value⟩ := entry
    rw [substituteAll_cons]
    by_cases hkey : isSearchable name.chars = true
    · have hsearchable : Values.searchable ((name, value) :: values) =
          (name, value) :: (Values.searchable values) := List.filter_cons_of_pos hkey
      have hfill : Node.fillAll (Values.searchable values) ∘ Node.fill name value =
          Node.fillAll ((name, value) :: (Values.searchable values)) := by
        funext node
        exact Node.fillAll_fill name value (Values.searchable values) node
      rw [if_pos hkey, substitute_print, ih, List.map_map, hfill, hsearchable]
    · have hsearchable : Values.searchable ((name, value) :: values) = Values.searchable values :=
        List.filter_cons_of_neg hkey
      rw [if_neg hkey, ih, hsearchable]

theorem Inline.evaluate_fill (name : Name) (value : PlainText) (values : Values) (i : Inline) :
    (i.fill name value).evaluate values = i.evaluate ((name, value) :: values) := by
  cases i with
  | text t => rfl
  | placeholder p =>
    by_cases hname : p.name = name
    · simp [Inline.fill, Inline.evaluate, hname]
    · have hbeq : (p.name == name) = false := by simpa using hname
      simp [Inline.fill, Inline.evaluate, hname, List.lookup_cons, hbeq]

theorem Inline.print_fillAll (values : Values) (i : Inline) :
    (i.fillAll values).print = i.evaluate values := by
  induction values generalizing i with
  | nil => cases i <;> rfl
  | cons entry values ih =>
    obtain ⟨name, value⟩ := entry
    rw [← Inline.evaluate_fill, ← ih]
    rfl

def Node.pieces : Node → List (Text.Piece Block)
  | .inline i => i.print.map .char
  | .conditional c body => [.found ⟨c.chars, printBody body⟩]

theorem misses_body {marker : List Char}
    (hmarker : ∀ (p : Padded) (rest : List Char),
      Text.strip? (opening ++ marker) (p.mark.print ++ rest) = none)
    (body : List Inline) (rest : List Char) :
    Text.Misses (Text.strip? (opening ++ marker)) rest (printBody body) := by
  induction body with
  | nil => trivial
  | cons i body ih =>
    refine Text.Misses.append ?_ ih
    cases i with
    | text t => exact misses_plainText (needsOpening_strip? marker) t _
    | placeholder p => exact misses_mark (needsOpening_strip? marker) p.mark (hmarker p _)

theorem pieces_node (node : Node) (rest : List Char) :
    Text.pieces block? (node.print ++ rest) = node.pieces ++ Text.pieces block? rest := by
  cases node with
  | inline i =>
    cases i with
    | text t => exact Text.pieces_of_misses (misses_plainText needsOpening_block? t rest)
    | placeholder p =>
      exact Text.pieces_of_misses (misses_mark needsOpening_block? p.mark (block?_padded p rest))
  | conditional c body =>
    have hbody : Text.Misses (Text.strip? blockClosing) (blockClosing ++ rest) (printBody body) :=
      misses_body strip?_blockClosing_padded body _
    have hfind := block?_opener c hbody
    have hcloser : closer.print = blockClosing := rfl
    have hopener : c.opener.print ++ (printBody body ++ blockClosing) ≠ [] :=
      List.append_ne_nil_of_left_ne_nil (by simp [Marked.print, opening]) _
    simp only [Node.print, Node.pieces, hcloser]
    rw [Text.pieces_of_found hopener (by simpa using hfind)]
    rfl

theorem pieces_print (nodes : List Node) :
    Text.pieces block? (print nodes) = nodes.flatMap Node.pieces := by
  induction nodes with
  | nil => rfl
  | cons node nodes ih =>
    simp only [print, List.flatMap_cons] at ih ⊢
    rw [pieces_node, ih]

theorem isNested_body (c : Condition) (body : List Inline) :
    (Block.mk c.chars (printBody body)).isNested = false :=
  Text.contains_eq_false (by simp [blockOpening]) (misses_body strip?_blockOpening_padded body [])

theorem nested_print (nodes : List Node) :
    (blocks (print nodes)).filter Block.isNested = [] := by
  rw [blocks, pieces_print]
  induction nodes with
  | nil => rfl
  | cons node nodes ih =>
    rw [List.flatMap_cons, List.filterMap_append, List.filter_append, ih, List.append_nil]
    cases node with
    | inline i => simp [Node.pieces, List.filterMap_map]
    | conditional c body => simp [Node.pieces, isNested_body]

theorem lookup_toParams (values : Values) (name : Name) :
    values.toParams.lookup (String.ofList name.chars) =
      (values.lookup name).map fun value => String.ofList value.chars := by
  induction values with
  | nil => rfl
  | cons entry values ih =>
    obtain ⟨key, value⟩ := entry
    simp only [Values.toParams, List.map_cons, List.lookup_cons] at ih ⊢
    by_cases hname : name = key
    · simp [hname]
    · have hchars : name.chars ≠ key.chars := by
        intro h
        exact hname (Name.eq_of_append_blanks (congrArg (· ++ Blanks.none.chars) h))
      have hkey : (name == key) = false := by simpa using hname
      have hstring : (String.ofList name.chars == String.ofList key.chars) = false := by
        simpa [String.ofList_inj] using hchars
      rw [hkey, hstring]
      exact ih

theorem isTruthy_lookup (values : Values) (name : Name) :
    isTruthy (values.toParams.lookup (String.ofList name.chars)) = values.holds name := by
  rw [lookup_toParams, Values.holds]
  cases values.lookup name with
  | none => rfl
  | some value =>
    have hother : ∀ word : List Char,
        (String.ofList value.chars != String.ofList word) = (value.chars != word) := by
      intro word
      rw [Bool.eq_iff_iff, bne_iff_ne, bne_iff_ne, ne_eq, ne_eq, String.ofList_inj]
    exact congrArg₂ (· && ·) (hother []) (hother ['f', 'a', 'l', 's', 'e'])

def Node.decide (values : Values) : Node → List Char
  | .inline i => i.print
  | .conditional c body => if values.holds c.name then printBody body else []

theorem decideBlocks_print (values : Values) (nodes : List Node) :
    decideBlocks values.toParams (print nodes) = nodes.flatMap (Node.decide values) := by
  rw [decideBlocks, Text.replace, pieces_print, List.flatMap_assoc]
  congr 1
  funext node
  cases node with
  | inline i =>
    simp [Node.pieces, Node.decide, List.flatMap_map]
  | conditional c body =>
    simp [Node.pieces, Node.decide, Block.isKept, name_block, isTruthy_lookup]

theorem Node.decide_fillAll (placed values : Values) (node : Node) :
    (node.fillAll placed).decide values = node.evaluate placed values := by
  cases node with
  | inline i => exact i.print_fillAll placed
  | conditional c body =>
    have hbody : printBody (body.map (Inline.fillAll placed)) =
        body.flatMap (Inline.evaluate placed) := by
      simp [printBody, List.flatMap_map, Inline.print_fillAll]
    simp only [Node.fillAll, Node.decide, Node.evaluate, hbody]

theorem render_eq_evaluate (values : Values) (nodes : List Node) :
    render (String.ofList (print nodes)) values.toParams =
      ⟨String.ofList (evaluate values.searchable values nodes), []⟩ := by
  have htext : decideBlocks values.toParams
      (print (nodes.map (Node.fillAll values.searchable))) =
        evaluate values.searchable values nodes := by
    rw [decideBlocks_print, List.flatMap_map]
    simp only [Node.decide_fillAll]
    rfl
  simp only [render, String.toList_ofList, substituteAll_print, htext, nested_print]
  rfl

def tone : Name where
  chars := ['t', 'o', 'n', 'e']
  nonempty := by simp
  braceless := by simp
  first := by simp [Text.isBlank, Text.isAsciiBlank]
  last := by simp [Text.isBlank, Text.isAsciiBlank]
  unmarked := by simp

def kind : PlainText where
  chars := ['k', 'i', 'n', 'd']
  noOpening := by decide +kernel
  noClosing := by decide +kernel
  first := by simp
  last := by simp

def space : Blanks := ⟨[' '], by simp [Text.isAsciiBlank]⟩

/-- A rendering evaluates the nodes that are printed in the template, and leaves a placeholder as it
is whose name is too long to be searched for. -/
theorem render_print (values : Values) (nodes : List Node) :
    render (String.ofList (print nodes)) values.toParams =
        ⟨String.ofList (evaluate values.searchable values nodes), []⟩ ∧
      ((∀ entry ∈ values, isSearchable entry.1.chars = true) →
        render (String.ofList (print nodes)) values.toParams =
          ⟨String.ofList (evaluate values values nodes), []⟩) := by
  refine ⟨render_eq_evaluate values nodes, fun h => ?_⟩
  have hsearchable : values.searchable = values := List.filter_eq_self.mpr h
  rw [render_eq_evaluate, hsearchable]

def toneNodes : List Node :=
  [.conditional ⟨⟨space, tone, .none⟩, List.cons_ne_nil _ _⟩
    [.text kind, .placeholder ⟨space, tone, space⟩]]

theorem render_toneNodes :
    String.ofList (print toneNodes) =
        "\x7b\x7b#if tone\x7d\x7dkind\x7b\x7b tone \x7d\x7d\x7b\x7b/if\x7d\x7d" ∧
      render (String.ofList (print toneNodes)) (Values.toParams [(tone, kind)]) =
        ⟨"kindkind", []⟩ := by
  refine ⟨by decide, ?_⟩
  rw [(render_print [(tone, kind)] toneNodes).2 (by decide)]
  decide

def letters (n : Nat) (h : n ≠ 0) : Name where
  chars := List.replicate n 'a'
  nonempty := by simpa using h
  braceless := by
    intro c hc
    obtain rfl := List.eq_of_mem_replicate hc
    decide
  first := by
    intro c hc
    obtain rfl := List.eq_of_mem_replicate (List.mem_of_mem_head? hc)
    decide
  last := by
    intro c hc
    obtain rfl := List.eq_of_mem_replicate (List.mem_of_mem_getLast? hc)
    decide
  unmarked := by
    intro c hc
    obtain rfl := List.eq_of_mem_replicate (List.mem_of_mem_head? hc)
    decide

theorem isSearchable_letters (n : Nat) (h : n ≠ 0) :
    isSearchable (letters n h).chars = true ↔ n ≤ 327667 := by
  rw [isSearchable, searchSize, maxSearchSize, decide_eq_true_eq,
    show (letters n h).chars.length = n from List.length_replicate]
  omega

def overlong : Name := letters 400000 (by decide)

theorem not_isSearchable_overlong : ¬ isSearchable overlong.chars = true := by
  rw [overlong, isSearchable_letters]
  decide

def alone (name : Name) : List Node := [.inline (.placeholder ⟨.none, name, .none⟩)]

theorem render_alone_of_not_isSearchable {name : Name} (value : PlainText)
    (h : ¬ isSearchable name.chars = true) :
    render (String.ofList (print (alone name))) (Values.toParams [(name, value)]) =
      ⟨String.ofList (print (alone name)), []⟩ := by
  have hsearchable : Values.searchable [(name, value)] = [] := List.filter_cons_of_neg h
  rw [render_eq_evaluate, hsearchable]
  rfl

theorem print_alone_ne_evaluate (name : Name) :
    print (alone name) ≠ evaluate [(name, kind)] [(name, kind)] (alone name) := by
  have hvalue : evaluate [(name, kind)] [(name, kind)] (alone name) = kind.chars := by
    simp [evaluate, Node.evaluate, Inline.evaluate, alone]
  rw [hvalue]
  intro h
  have hhead := congrArg List.head? h
  simp [print, alone, Node.print, Inline.print, Marked.print, opening, kind] at hhead

theorem render_overlong :
    render (String.ofList (print (alone overlong))) (Values.toParams [(overlong, kind)]) =
        ⟨String.ofList (print (alone overlong)), []⟩ ∧
      render (String.ofList (print (alone overlong))) (Values.toParams [(overlong, kind)]) ≠
        ⟨String.ofList (evaluate [(overlong, kind)] [(overlong, kind)] (alone overlong)), []⟩ := by
  have hliteral := render_alone_of_not_isSearchable kind not_isSearchable_overlong
  refine ⟨hliteral, fun hclaim => ?_⟩
  rw [hliteral, Rendered.mk.injEq, String.ofList_inj] at hclaim
  exact print_alone_ne_evaluate overlong hclaim.1

end FlatConfig.Template
