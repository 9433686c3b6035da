import FlatConfig.Extension
import FlatConfig.Proofs.Attempt
import FlatConfig.Proofs.Entries

set_option autoImplicit false

namespace FlatConfig

namespace Decoder

/-- Reading gives back what was written. A value that can be read may be in another form, but after
reading and writing it once, doing so again changes nothing. -/
structure Undoes {α : Type} (decode : Decoder α) (encode : α → Value) : Prop where
  decode_encode : ∀ x, decode (encode x) = .ok x
  canonical : ∀ v w, encode <$> decode v = .ok w → encode <$> decode w = .ok w

theorem Undoes.of_decode_encode {α : Type} {decode : Decoder α} {encode : α → Value}
    (h : ∀ x, decode (encode x) = .ok x) : Undoes decode encode where
  decode_encode := h
  canonical := by
    intro v w hw
    cases hv : decode v with
    | error e => simp [hv] at hw
    | ok x =>
      rw [hv, map_ok] at hw
      obtain rfl := Except.ok.inj hw
      rw [h, map_ok]

theorem optional_string (s : String) : optional string (.string s) = .ok (some s) := rfl

theorem listOf_encodeStrings (items : List String) :
    listOf string (RuleCollection.encodeStrings items) = .ok items := by
  have hmapM : (items.map Value.string).mapM string = .ok items := by
    induction items with
    | nil => rfl
    | cons s rest ih =>
      rw [List.map_cons, List.mapM_cons, ih]
      rfl
  exact hmapM

theorem optional_encodeStrings (items : List String) :
    optional (listOf string) (RuleCollection.encodeStrings items) = .ok (some items) := by
  have hitems := listOf_encodeStrings items
  rw [RuleCollection.encodeStrings] at hitems ⊢
  rw [optional, hitems, map_ok]
  nofun

end Decoder

theorem InstructionSet.decode_encode (set : InstructionSet) : decode set.encode = .ok set := by
  obtain ⟨description, instructions⟩ := set
  cases description <;> rfl

theorem InstructionRef.decode_encode (reference : InstructionRef) :
    decode reference.encode = .ok reference := by
  obtain ⟨set, parameters⟩ := reference
  cases parameters <;> rfl

/-- A reference is written as a mapping, so it is not taken for a text. -/
theorem InstructionSource.decode_encode (source : InstructionSource) :
    decode source.encode = .ok source := by
  cases source with
  | text s => rfl
  | reference r =>
    have hr := r.decode_encode
    rw [InstructionRef.encode] at hr
    rw [encode, InstructionRef.encode, decode, hr]
    nofun

theorem PathInstruction.decode_encode (instruction : PathInstruction) :
    decode instruction.encode = .ok instruction := by
  have hsource := instruction.instructions.decode_encode
  simp [encode, decode, Decoder.checkInOrder, check, Decoder.field, Fragment.get?_cons,
    Decoder.string, hsource]

theorem RuleCollection.decode_encode (collection : RuleCollection) :
    decode collection.encode = .ok collection := by
  obtain ⟨description, rules, packages⟩ := collection
  have hrules := Decoder.listOf_encodeStrings rules
  have hpackages := Decoder.optional_encodeStrings
  cases description <;> cases packages <;>
    simp [encode, decode, Fragment.entry?, Decoder.checkInOrder, check, Decoder.field,
      Fragment.get?_cons, Decoder.optional_string, hrules, hpackages]

theorem Decoder.undoes_records :
    Undoes InstructionSet.decode InstructionSet.encode ∧
      Undoes PathInstruction.decode PathInstruction.encode ∧
      Undoes InstructionSource.decode InstructionSource.encode ∧
      Undoes InstructionRef.decode InstructionRef.encode ∧
      Undoes RuleCollection.decode RuleCollection.encode ∧
      (∀ r s, InstructionSource.decode (InstructionSource.reference r).encode ≠ .ok (.text s)) ∧
      ∀ s r, InstructionSource.decode (InstructionSource.text s).encode ≠ .ok (.reference r) := by
  refine ⟨.of_decode_encode InstructionSet.decode_encode,
    .of_decode_encode PathInstruction.decode_encode,
    .of_decode_encode InstructionSource.decode_encode,
    .of_decode_encode InstructionRef.decode_encode,
    .of_decode_encode RuleCollection.decode_encode, ?_, ?_⟩
  · intro r s
    simp [InstructionSource.decode_encode]
  · intro s r
    simp [InstructionSource.decode_encode]

example :
    InstructionRef.encode <$> InstructionRef.decode
        (.mapping [("with", .mapping []), ("when", .null), ("use", .string "style")]) =
      .ok (.mapping [("use", .string "style")]) := rfl

example :
    RuleCollection.encode <$> RuleCollection.decode
        (.list [.null, .list [], .list [.string "lints"]]) =
      .ok (.mapping [("rules", .list []), ("packages", .list [.string "lints"])]) := rfl

end FlatConfig
