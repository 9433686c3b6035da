import FlatConfig.Proofs.Blocks
import FlatConfig.Proofs.PathInstructions
import FlatConfig.Proofs.Template

set_option autoImplicit false

namespace FlatConfig

namespace Json

/-- The first character tells a text from the empty one and from the word `false`. -/
def StartsApart (text : List Char) : Prop := ∃ c rest, text = c :: rest ∧ c ≠ 'f'

theorem startsApart_toDigits (n : Nat) : StartsApart (Nat.toDigits 10 n) := by
  obtain ⟨c, rest, hdigits⟩ := List.exists_cons_of_ne_nil (Nat.toDigits_ne_nil (n := n) (b := 10))
  have hdigit : c.isDigit = true :=
    Nat.isDigit_of_mem_toDigits (b := 10) (n := n) (by decide) (by decide) (by simp [hdigits])
  refine ⟨c, rest, hdigits, ?_⟩
  rintro rfl
  exact absurd hdigit (by decide)

theorem startsApart_layPositional {digits : List Char} (h : StartsApart digits) (leading : Int) :
    StartsApart (FloatFormat.layPositional digits leading) := by
  obtain ⟨c, rest, rfl, hc⟩ := h
  rw [FloatFormat.layPositional]
  split
  · exact ⟨'0', _, rfl, by decide⟩
  · exact ⟨c, _, rfl, hc⟩

theorem startsApart_layScientific {digits : List Char} (h : StartsApart digits) (plus : String)
    (leading : Int) : StartsApart (FloatFormat.layScientific plus digits leading) := by
  obtain ⟨c, rest, rfl, hc⟩ := h
  exact ⟨c, _, rfl, hc⟩

theorem startsApart_write (format : FloatFormat) (x : Binary64) :
    StartsApart (format.write x) := by
  have hdigits := startsApart_toDigits (Decimal.shortest x).digits
  rw [FloatFormat.write]
  cases x.negative with
  | true => exact ⟨'-', _, rfl, by decide⟩
  | false =>
    simp only [Bool.false_eq_true, if_false, List.nil_append]
    split
    · exact startsApart_layPositional hdigits _
    · exact startsApart_layScientific hdigits _ _

theorem startsApart_number (n : Number) : StartsApart (number n) := by
  cases n with
  | float x => exact startsApart_write floatFormat x
  | integer n =>
    cases n with
    | ofNat n =>
      have htext : number (.integer (.ofNat n)) = Nat.toDigits 10 n := Nat.toList_repr
      rw [htext]
      exact startsApart_toDigits n
    | negSucc n => exact ⟨'-', (n + 1).repr.toList, by simp [number, Int.repr], by decide⟩

theorem startsApart_compact {v : Value} (h : v ≠ .bool false) : StartsApart (compact v) := by
  cases v with
  | null => exact ⟨'n', _, rfl, by decide⟩
  | bool b =>
    cases b with
    | true => exact ⟨'t', _, rfl, by decide⟩
    | false => exact absurd rfl h
  | number n => exact startsApart_number n
  | string s => exact ⟨'"', _, rfl, by decide⟩
  | list items => exact ⟨'[', _, rfl, by decide⟩
  | mapping entries => exact ⟨'{', _, rfl, by decide⟩

end Json

namespace InstructionRef

theorem isTruthy_parameterText {v : Value} : Template.isTruthy (some (parameterText v)) = true ↔
    ¬ (v = .null ∨ v = .bool false ∨ v = .string "" ∨ v = .string "false") := by
  have hjson (h : v ≠ .bool false) : Template.isTruthy (some v.toJson) = true := by
    obtain ⟨c, rest, htext, hc⟩ := Json.startsApart_compact h
    have hlist : v.toJson.toList = c :: rest := by rw [Value.toJson, htext, String.toList_ofList]
    refine Template.isTruthy_iff.mpr ⟨_, rfl, fun hempty => ?_, fun hword => ?_⟩
    · rw [hempty] at hlist
      cases hlist
    · rw [hword] at hlist
      exact hc (List.cons.inj hlist).1.symm
  cases v with
  | null => simp [parameterText, Template.isTruthy]
  | string s => simp [parameterText, Template.isTruthy]
  | bool b =>
    cases b with
    | true => simp [parameterText, hjson]
    | false => simp [parameterText, Template.isTruthy, Value.toJson, Json.compact]
  | _ => simp [parameterText, hjson]

theorem lookup_templateParams (r : InstructionRef) (key : String) :
    r.templateParams.lookup key = (r.parameters.get? key).map parameterText := by
  rw [templateParams, Fragment.get?]
  induction r.parameters with
  | nil => rfl
  | cons entry rest ih =>
    obtain ⟨k, v⟩ := entry
    rw [List.map_cons, lookup_cons_eq, lookup_cons_eq, ih]
    by_cases hkey : key = k <;> simp [hkey]

end InstructionRef

namespace Template

section
variable (c : Condition) {body : List Char}

/-- No placeholder begins in the block, whatever the name is. -/
theorem misses_conditional (hbody : ∀ d ∈ body, d ≠ '{') (name : Name) :
    Text.Misses (placeholder? name.chars) [] (c.opener.print ++ (body ++ closer.print)) := by
  have hneeds := needsOpening_placeholder? name.chars
  have hopener := placeholder?_of_sign name (.inl rfl) (m := c.opener) rfl (body ++ closer.print)
  have hcloser := placeholder?_of_sign name (.inr rfl) (m := closer) rfl []
  refine .append (misses_mark hneeds c.opener (by simpa using hopener)) (.append ?_ ?_)
  · exact misses_braceless hneeds hbody _
  · exact misses_mark hneeds closer hcloser

theorem substitute_conditional (hbody : ∀ d ∈ body, d ≠ '{') (name : Name) (value : List Char) :
    substitute name.chars value (c.opener.print ++ (body ++ closer.print)) =
      c.opener.print ++ (body ++ closer.print) := by
  have hmisses := misses_conditional c hbody name
  rw [← List.append_nil (c.opener.print ++ (body ++ closer.print)), substitute,
    Text.replace_of_misses hmisses]
  rfl

/-- The values of other parameters are put in nowhere. -/
theorem substituteAll_conditional (hbody : ∀ d ∈ body, d ≠ '{') {params : Params}
    (hkeys : ∀ entry ∈ params, ∃ name : Name, entry.1 = String.ofList name.chars) :
    substituteAll params (c.opener.print ++ (body ++ closer.print)) =
      c.opener.print ++ (body ++ closer.print) := by
  induction params with
  | nil => rfl
  | cons entry rest ih =>
    obtain ⟨key, value⟩ := entry
    obtain ⟨⟨name, hname⟩, hrest⟩ := List.forall_mem_cons.mp hkeys
    obtain rfl : key = String.ofList name.chars := hname
    simp only [substituteAll, List.foldl_cons, String.toList_ofList,
      substitute_conditional c hbody name, ite_self]
    exact ih hrest

theorem pieces_conditional (hbody : ∀ d ∈ body, d ≠ '{') :
    Text.pieces block? (c.opener.print ++ (body ++ closer.print)) = [.found ⟨c.chars, body⟩] := by
  have hmisses : Text.Misses (Text.strip? blockClosing) (blockClosing ++ []) body :=
    misses_braceless (needsOpening_strip? ['/', 'i', 'f', '}', '}']) hbody _
  have hfind := block?_opener c hmisses
  have hne : c.opener.print ++ (body ++ blockClosing) ≠ [] :=
    List.append_ne_nil_of_left_ne_nil (by simp [Marked.print, opening]) _
  have hcloser : closer.print = blockClosing := rfl
  rw [hcloser, ← List.append_nil (c.opener.print ++ (body ++ blockClosing)),
    Text.pieces_of_found hne (by simpa using hfind)]
  rfl

theorem render_conditional (hbody : ∀ d ∈ body, d ≠ '{') {params : Params}
    (hkeys : ∀ entry ∈ params, ∃ name : Name, entry.1 = String.ofList name.chars) :
    render (String.ofList (c.opener.print ++ (body ++ closer.print))) params =
      ⟨if isTruthy (params.lookup (String.ofList c.name.chars)) then String.ofList body else "",
        []⟩ := by
  have hopening : (Block.mk c.chars body).isNested = false :=
    Text.contains_eq_false (by simp [blockOpening])
      (misses_braceless (needsOpening_strip? ['#', 'i', 'f']) hbody [])
  have hkept : (Block.mk c.chars body).isKept params =
      isTruthy (params.lookup (String.ofList c.name.chars)) := by
    rw [Block.isKept, name_block]
  simp only [render, String.toList_ofList, substituteAll_conditional c hbody hkeys, decideBlocks,
    Text.replace, blocks, pieces_conditional c hbody]
  cases h : isTruthy (params.lookup (String.ofList c.name.chars)) <;>
    simp [hopening, hkept, h]

end

def Name.condition (p : Name) : Condition := ⟨⟨space, p, .none⟩, by simp [space]⟩

theorem print_condition (p : Name) (body : String) :
    String.ofList (p.condition.opener.print ++ (body.toList ++ closer.print)) =
      "\x7b\x7b#if " ++ String.ofList p.chars ++ "\x7d\x7d" ++ body ++ "\x7b\x7b/if\x7d\x7d" := by
  rw [← String.toList_inj]
  simp [Name.condition, Marked.print, Condition.opener, closer, Padded.chars, space, Blanks.none,
    opening, closing]

end Template

namespace Expand

open Template

/-- A reference to a set whose text is one block around a text without braces gives this text, or
nothing when the parameter of the block is null, false, empty or the word `false`. The other
parameters have ordinary names, and their values do not matter. -/
theorem lowerEntry_conditional {sets : Fragment} {entry w v : Value} {path : String}
    {r : InstructionRef} {set : InstructionSet} {p : Name} {body : String}
    (hentry : PathInstruction.decode entry = .ok ⟨path, .reference r⟩)
    (hw : sets.get? r.set = some w) (hset : InstructionSet.decode w = .ok set)
    (htext : set.instructions =
      "\x7b\x7b#if " ++ String.ofList p.chars ++ "\x7d\x7d" ++ body ++ "\x7b\x7b/if\x7d\x7d")
    (hbody : ∀ c ∈ body.toList, c ≠ '{' ∧ c ≠ '}')
    (hv : r.parameters.get? (String.ofList p.chars) = some v)
    (hkeys : ∀ key ∈ r.parameters.keys, ∃ name : Name, key = String.ofList name.chars) :
    ∃ text : String,
      text = (if v = .null ∨ v = .bool false ∨ v = .string "" ∨ v = .string "false" then ""
        else body) ∧
      lowerEntry sets entry =
        ⟨[], some (.mapping [("path", .string path), ("instructions", .string text)])⟩ ∧
      ∀ (fragment result : Fragment) (before after : List Value),
        fragment.extension? .instructionSets = some (.mapping sets) →
        fragment.extension? .pathInstructions = some (.list (before ++ entry :: after)) →
        fragment.expand.value = .ok result →
        ∃ (existing : List Value) (reviews : Fragment),
          fragment.HasPathInstructions existing ∧
          result.get? "reviews" = some (.mapping reviews) ∧
          reviews.get? "path_instructions" =
            some (.list (existing ++ ((lowerEntries sets before).value ++
              .mapping [("path", .string path), ("instructions", .string text)] ::
                (lowerEntries sets after).value))) := by
  have hparams : ∀ entry ∈ r.templateParams, ∃ name : Name,
      entry.1 = String.ofList name.chars := by
    intro entry hentry
    obtain ⟨parameter, hparameter, rfl⟩ := List.mem_map.mp hentry
    exact hkeys parameter.1 (List.mem_map_of_mem hparameter)
  have hrender := render_conditional p.condition (fun c hc => (hbody c hc).1) hparams
  rw [print_condition, String.ofList_toList, ← htext] at hrender
  have hdecided : isTruthy (r.templateParams.lookup (String.ofList p.chars)) = true ↔
      ¬ (v = .null ∨ v = .bool false ∨ v = .string "" ∨ v = .string "false") := by
    rw [InstructionRef.lookup_templateParams, hv]
    exact InstructionRef.isTruthy_parameterText
  have hlowered : lowerEntry sets entry = ⟨[], some (.mapping
      [("path", .string path), ("instructions", .string
        (if v = .null ∨ v = .bool false ∨ v = .string "" ∨ v = .string "false" then ""
          else body))])⟩ := by
    have hfound : findSet sets r.set = pure (some set) := by simp only [findSet, hw, hset]
    have htext : (render set.instructions r.templateParams).text =
        if v = .null ∨ v = .bool false ∨ v = .string "" ∨ v = .string "false" then ""
          else body := by
      rw [hrender]
      by_cases hoff : v = .null ∨ v = .bool false ∨ v = .string "" ∨ v = .string "false"
      · exact (if_neg fun h => hdecided.mp h hoff).trans (if_pos hoff).symm
      · exact (if_pos (hdecided.mpr hoff)).trans (if_neg hoff).symm
    refine Logged.ext_log_value ?_ ?_
    · rw [log_lowerEntry_reference hentry hfound, hrender]
      rfl
    · rw [← htext]
      exact value_lowerEntry_eq_some_iff.mpr (.reference hentry hw hset)
  refine ⟨_, rfl, hlowered, ?_⟩
  intro fragment result before after hsets hentries h
  obtain ⟨named, items, existing, reviews, hnamed, hitems, hexisting, hreviews, hlist⟩ :=
    Fragment.get?_pathInstructions_expand hsets hentries h
  obtain rfl := Value.mapping.inj hnamed
  obtain rfl := Value.list.inj hitems
  refine ⟨existing, reviews, hexisting, hreviews, ?_⟩
  rw [hlist, value_lowerEntries, value_lowerEntries, value_lowerEntries, List.filterMap_append,
    List.filterMap_cons, hlowered]

def toneText : String := "\x7b\x7b#if tone\x7d\x7dMind the tone.\x7b\x7b/if\x7d\x7d"

def toneSets : Fragment := [("polite", .mapping [("instructions", .string toneText)])]

def toneParameters (v : Value) : Fragment :=
  [("kind", .string "\x7b\x7b/if\x7d\x7d"), ("tone", v)]

def toneEntry (v : Value) : Value :=
  .mapping [("path", .string "docs"),
    ("instructions", .mapping [("use", .string "polite"), ("with", .mapping (toneParameters v))])]

def negativeZero : Value := .number (.float (.zero true))

def toneRules : Fragment :=
  [("instruction_sets", .mapping toneSets),
    ("enhanced_path_instructions", .list [toneEntry (.bool false), toneEntry negativeZero])]

def kindName : Name where
  chars := kind.chars
  nonempty := by simp [kind]
  braceless := by simp [kind]
  first := by simp [kind, Text.isBlank, Text.isAsciiBlank]
  last := by simp [kind, Text.isBlank, Text.isAsciiBlank]
  unmarked := by simp [kind]

def toneReviews : Fragment :=
  [("path_instructions", .list [lowered "docs" "", lowered "docs" "Mind the tone."])]

theorem lowerEntry_negativeZero :
    PathInstruction.decode (toneEntry negativeZero) =
        .ok ⟨"docs", .reference ⟨"polite", toneParameters negativeZero⟩⟩ ∧
      InstructionRef.parameterText negativeZero = "-0.0" ∧
      lowerEntry toneSets (toneEntry negativeZero) =
        ⟨[], some (lowered "docs" "Mind the tone.")⟩ ∧
      toneRules.expand.value = .ok [("reviews", .mapping toneReviews)] ∧
      ∃ existing, toneRules.HasPathInstructions existing ∧
        toneReviews.get? "path_instructions" = some (.list (existing ++
          ((lowerEntries toneSets [toneEntry (.bool false)]).value ++
            [lowered "docs" "Mind the tone."]))) := by
  have hentry : PathInstruction.decode (toneEntry negativeZero) =
    .ok ⟨"docs", .reference ⟨"polite", toneParameters negativeZero⟩⟩ := rfl
  have hw : toneSets.get? "polite" = some (.mapping [("instructions", .string toneText)]) := rfl
  have hset : InstructionSet.decode (.mapping [("instructions", .string toneText)]) =
    .ok ⟨none, toneText⟩ := rfl
  have htext : toneText = "\x7b\x7b#if " ++ String.ofList tone.chars ++ "\x7d\x7d" ++
    "Mind the tone." ++ "\x7b\x7b/if\x7d\x7d" := rfl
  have hv : (toneParameters negativeZero).get? (String.ofList tone.chars) = some negativeZero := rfl
  have hkeys : ∀ key ∈ (toneParameters negativeZero).keys,
      ∃ name : Name, key = String.ofList name.chars := by
    intro key hkey
    obtain rfl | rfl : key = "kind" ∨ key = "tone" := by
      simpa [toneParameters, Fragment.keys] using hkey
    · exact ⟨kindName, rfl⟩
    · exact ⟨tone, rfl⟩
  have hexpand : toneRules.expand.value = .ok [("reviews", .mapping toneReviews)] := rfl
  obtain ⟨text, rfl, hlowered, hpaths⟩ :=
    lowerEntry_conditional hentry hw hset htext (by simp) hv hkeys
  obtain ⟨existing, reviews, hexisting, hreviews, hlist⟩ :=
    hpaths toneRules _ [toneEntry (.bool false)] [] rfl rfl hexpand
  obtain rfl := Value.mapping.inj (Option.some.inj hreviews)
  exact ⟨hentry, rfl, hlowered, hexpand, existing, hexisting, hlist⟩

end Expand
end FlatConfig
