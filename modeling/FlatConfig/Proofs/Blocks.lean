import FlatConfig.Expand
import FlatConfig.Proofs.Division
import FlatConfig.Proofs.Marks
import Mathlib.Data.List.Infix

set_option autoImplicit false

namespace FlatConfig.Template

/-- An opening mark with its condition, and then everything up to the first closing mark. -/
structure IsBlock (front : List Char) (b : Block) : Prop where
  front_eq : front = blockOpening ++ (b.condition ++ (closing ++ (b.body ++ blockClosing)))
  long : b.condition.length ≥ 2
  blank : b.condition.head?.any Text.isAsciiBlank = true
  unclosed : ∀ c ∈ b.condition, c ≠ '}'
  first : ¬ blockClosing <:+: b.body

def Params.Holds (params : Params) (name : String) : Prop :=
  ∃ before value after, params = before ++ (name, value) :: after ∧
    (∀ entry ∈ before, entry.1 ≠ name) ∧ value ≠ "" ∧ value ≠ "false"

def nestedNames (blocks : List Block) : List String :=
  (blocks.filter fun b => blockOpening <:+: b.body).map Block.name

theorem isTruthy_iff {found : Option String} :
    isTruthy found = true ↔ ∃ value, found = some value ∧ value ≠ "" ∧ value ≠ "false" := by
  cases found with
  | none => simp [isTruthy]
  | some value => simp [isTruthy]

theorem holds_iff {params : Params} {name : String} :
    isTruthy (params.lookup name) = true ↔ params.Holds name := by
  rw [isTruthy_iff, Params.Holds]
  constructor
  · rintro ⟨value, hlookup, hvalue⟩
    obtain ⟨before, after, hparams, hbefore⟩ := List.lookup_eq_some_iff.mp hlookup
    exact ⟨before, value, after, hparams, fun e he => (bne_iff_ne.mp (hbefore e he)).symm, hvalue⟩
  · rintro ⟨before, value, after, hparams, hbefore, hvalue⟩
    refine ⟨value, List.lookup_eq_some_iff.mpr ⟨before, after, hparams, fun e he => ?_⟩, hvalue⟩
    exact bne_iff_ne.mpr (hbefore e he).symm

instance (params : Params) (name : String) : Decidable (params.Holds name) :=
  decidable_of_iff _ holds_iff

theorem finds_block? : Text.Finds block? IsBlock where
  eq_some_iff {text b rest} := by
    rw [block?_eq_some_iff]
    constructor
    · rintro ⟨rfl, ⟨hlong, hblank⟩, hunclosed, hmisses⟩
      have hfirst := hmisses.not_infix (by simp [blockClosing])
      exact ⟨_, ⟨rfl, hlong, hblank, hunclosed, hfirst⟩, by simp only [List.append_assoc]⟩
    · rintro ⟨front, ⟨rfl, hlong, hblank, hunclosed, hfirst⟩, rfl⟩
      refine ⟨by simp only [List.append_assoc], ⟨hlong, hblank⟩, hunclosed, ?_⟩
      exact Text.misses_of_not_infix (by decide) hfirst
  ne_nil := by
    rintro _ _ ⟨rfl, -⟩
    simp [blockOpening]

theorem blocks_eq_values {text : List Char} {d : Text.Division Block}
    (hd : d.Divides IsBlock text) : blocks text = d.values := by
  rw [blocks, ← hd.text_eq, finds_block?.pieces_text hd.leftmost]
  clear hd
  induction d with
  | last gap => simp [Text.Division.pieces, Text.Division.values, List.filterMap_map]
  | found gap front b rest ih =>
    simp [Text.Division.pieces, Text.Division.values, List.filterMap_map, ih]

theorem names_nested (blocks : List Block) :
    (blocks.filter Block.isNested).map Block.name = nestedNames blocks := by
  have hnested (b : Block) : b.isNested = decide (blockOpening <:+: b.body) := by
    rw [Bool.eq_iff_iff, decide_eq_true_eq]
    exact Text.contains_iff
  exact congrArg (List.map Block.name) (List.filter_congr fun b _ => hnested b)

theorem render_eq {template : String} {params : Params} {d : Text.Division Block}
    (hd : d.Divides IsBlock (substituteAll params template.toList)) :
    render template params =
      ⟨String.ofList (decideBlocks params (substituteAll params template.toList)),
        nestedNames d.values⟩ := by
  rw [render, blocks_eq_values hd, names_nested]

theorem log_lowerEntry_reference {sets : Fragment} {entry : Value} {path : String}
    {r : InstructionRef} {set : InstructionSet}
    (hentry : PathInstruction.decode entry = .ok ⟨path, .reference r⟩)
    (hset : Expand.findSet sets r.set = pure (some set)) :
    (Expand.lowerEntry sets entry).log =
      (render set.instructions r.templateParams).nested.map .nestedBlock := by
  rw [Expand.lowerEntry, hentry]
  simp only [hset]
  rfl

/-- What stands behind a closing mark goes on to an opener that has no closing mark behind it. -/
theorem exists_behind_closing {text rest before after : List Char}
    (h : text ++ (blockClosing ++ rest) = before ++ after) (hopening : blockOpening <+: after)
    (hclosing : ¬ blockClosing <:+: after) : ∃ more, rest = more ++ after := by
  rcases List.append_eq_append_iff.mp h with ⟨more, -, hmore⟩ | ⟨more, -, hafter⟩
  · rcases List.append_eq_append_iff.mp hmore with ⟨behind, -, hbehind⟩ | ⟨tail, hmark, hafter⟩
    · exact ⟨behind, hbehind⟩
    · -- the opener would begin inside the closing mark, of which no end begins like an opener
      have htail : tail <:+ blockClosing := ⟨more, hmark.symm⟩
      rw [hafter] at hopening
      simp only [blockClosing, List.suffix_cons_iff, List.suffix_nil] at htail
      rcases htail with rfl | rfl | rfl | rfl | rfl | rfl | rfl | rfl
      case inr.inr.inr.inr.inr.inr.inr => exact ⟨[], hafter.symm⟩
      all_goals simp [blockOpening] at hopening
  · exact absurd ⟨more, rest, by rw [hafter, List.append_assoc]⟩ hclosing

theorem suffix_replaced {image : Block → List Char} {d : Text.Division Block}
    {before after : List Char} (hd : d.IsLeftmost IsBlock) (htext : d.text = before ++ after)
    (hopening : blockOpening <+: after) (hclosing : ¬ blockClosing <:+: after) :
    after <:+ d.replaced image := by
  induction d generalizing before with
  | last gap => exact ⟨before, htext.symm⟩
  | found gap front b rest ih =>
    obtain ⟨-, ⟨rfl, -⟩, hrest⟩ := hd
    have hclosed : (gap ++ (blockOpening ++ (b.condition ++ (closing ++ b.body)))) ++
        (blockClosing ++ rest.text) = before ++ after := by
      rw [← htext, Text.Division.text]
      simp only [List.append_assoc]
    obtain ⟨more, hmore⟩ := exists_behind_closing hclosed hopening hclosing
    rw [Text.Division.replaced, ← List.append_assoc]
    exact (ih hrest hmore).trans (List.suffix_append _ _)

/-- A text has one division in which no block starts inside a gap. Of its blocks the body stays as
it is, or nothing, and the gaps stay; so does an opener with no closing mark behind it, with all
that follows. A rendering reports the blocks with another opening mark in their body, in order. -/
theorem decideBlocks_leftmost (params : Params) (text : List Char) :
    ∃ d : Text.Division Block, d.Divides IsBlock text ∧
      (∀ e : Text.Division Block, e.Divides IsBlock text → e = d) ∧
      decideBlocks params text =
        d.replaced (fun b => if params.Holds b.name then b.body else []) ∧
      (∀ before after, text = before ++ after → blockOpening <+: after →
        ¬ blockClosing <:+: after → after <:+ decideBlocks params text) ∧
      (∀ template : String, substituteAll params template.toList = text →
        render template params =
          ⟨String.ofList (decideBlocks params text), nestedNames d.values⟩) ∧
      ∀ sets entry path r set, PathInstruction.decode entry = .ok ⟨path, .reference r⟩ →
        Expand.findSet sets r.set = pure (some set) → r.templateParams = params →
        substituteAll params set.instructions.toList = text →
        (Expand.lowerEntry sets entry).log = (nestedNames d.values).map .nestedBlock := by
  obtain ⟨d, hd, hunique⟩ := finds_block?.exists_unique_division text
  have hdecide : decideBlocks params text =
      d.replaced (fun b => if params.Holds b.name then b.body else []) := by
    have hkept (b : Block) : (if b.isKept params then b.body else []) =
        if params.Holds b.name then b.body else [] := if_congr holds_iff rfl rfl
    rw [decideBlocks, finds_block?.replace_eq hd]
    simp only [hkept]
  refine ⟨d, hd, hunique, hdecide, ?_, ?_, ?_⟩
  · intro before after htext hopening hclosing
    rw [hdecide]
    exact suffix_replaced hd.leftmost (hd.text_eq.trans htext) hopening hclosing
  · rintro template rfl
    exact render_eq hd
  · rintro sets entry path r set hentry hset rfl rfl
    rw [log_lowerEntry_reference hentry hset, render_eq hd]

end FlatConfig.Template
