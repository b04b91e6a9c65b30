import Stencil.Proofs.Text.Encoded
import Stencil.Transform.Builtin

/-!
# Encodings that lose nothing

The two built-in encodings take a value to a text in which its display text can be read again, so
values that are displayed differently have different images. The main statement is
`Builtin.encodings_lossless`.
-/

namespace Stencil

/-- A step takes a value to a text of a given form, in which a decoder finds the bytes of its
display text. So another value has the same image exactly if it is displayed alike. -/
structure Registry.Encodes (registry : Registry) (step : Step) (form : List Char → Prop)
    (decode : List Char → Option (List UInt8)) (value : Value) (shown : String) : Prop where
  code : ∃ code : String, registry.apply step value [] = (.text code, []) ∧
    form code.toList ∧ (decode code.toList).map Text.utf8Text = some (.ok shown.toList)
  injective : ∀ (other : Value) (text : String), other.display = .ok text →
    (registry.apply step other [] = registry.apply step value [] ↔ text = shown)

namespace Builtin

variable {value : Value} {shown : String} {dateTemplate : String} {step : Step}
  {encode : List Char → List Char}

/-- A change of the text of a shown value gives the changed text. -/
theorem onText_of_display (displayed : value.display = .ok shown) :
    onText encode value = .ok (.text (String.ofList (encode shown.toList))) := by
  rw [onText, displayed]
  rfl

section Step

variable {registry : Registry} {transformation : Transformation} {id label : String}
  (found : registry.get? id = some transformation) (named : step.name = id)
  (runs : transformation.run = plain label (onText encode)) (bare : step.args = [])
include found named runs bare

/-- A step whose transformation works on the display text. -/
theorem apply_of_onText (displayed : value.display = .ok shown) :
    registry.apply step value [] = (.text (String.ofList (encode shown.toList)), []) := by
  have taken : transformation.run value (step.args.map .text ++ []) =
      .ok (.text (String.ofList (encode shown.toList))) := by
    rw [runs, bare]
    exact onText_of_display displayed
  rw [Registry.apply, named, found]
  dsimp only
  rw [taken]

/-- A step whose transformation encodes the display text, by a code that a decoder undoes. -/
theorem encodes_of_onText {form : List Char → Prop} {decode : List Char → Option (List UInt8)}
    (formed : ∀ text, form (encode text))
    (undone : ∀ text, decode (encode text) = some (Text.utf8Bytes text))
    (displayed : value.display = .ok shown) : registry.Encodes step form decode value shown := by
  have applied {other : Value} {text : String} (shows : other.display = .ok text) :=
    apply_of_onText found named runs bare shows
  have decoded : ∀ text : String,
      (decode (encode text.toList)).map Text.utf8Text = some (.ok text.toList) := by
    intro text
    rw [undone, Option.map_some, Text.utf8Text_utf8Bytes]
  refine ⟨⟨_, applied displayed, ?_, ?_⟩, ?_⟩
  · rw [String.toList_ofList]
    exact formed shown.toList
  · rw [String.toList_ofList]
    exact decoded shown
  · intro other text shows
    rw [applied shows, applied displayed]
    constructor
    · intro same
      simp only [Prod.mk.injEq, Value.text.injEq, and_true, String.ofList_inj] at same
      have agree := (decoded text).symm.trans (same ▸ decoded shown)
      exact String.toList_inj.mp (Except.ok.inj (Option.some.inj agree))
    · rintro rfl
      rfl

end Step

/-- Percent encoding and base 64 lose nothing of the display text: its bytes can be read again. -/
theorem encodings_lossless (dateTemplate : String) (displayed : value.display = .ok shown)
    (bare : step.args = []) :
    (step.name = "urlEncode" →
      (registry dateTemplate).Encodes step Text.IsPercentText Text.percentBytes? value shown) ∧
    (step.name = "base64" →
      (registry dateTemplate).Encodes step Text.IsPaddedBase64 Text.base64Decode? value shown) := by
  constructor
  · intro named
    exact encodes_of_onText rfl named rfl bare Text.isPercentText_percentEncode
      Text.percentBytes?_percentEncode displayed
  · intro named
    exact encodes_of_onText rfl named rfl bare
      (fun text => Text.isPaddedBase64_base64Encode (Text.utf8Bytes text))
      (fun text => Text.base64Decode?_base64Encode (Text.utf8Bytes text)) displayed

/-- A text with characters of two, three and four bytes, and with the percent sign itself. -/
theorem encodings_lossless_wide :
    (registry "YYYY").Encodes (Step.mk "urlEncode" [] "urlEncode") Text.IsPercentText
        Text.percentBytes? (.text "é€😀%41") "é€😀%41" ∧
      (registry "YYYY").Encodes (Step.mk "base64" [] "base64") Text.IsPaddedBase64
        Text.base64Decode? (.text "é€😀%41") "é€😀%41" :=
  ⟨(encodings_lossless "YYYY" rfl rfl).1 rfl, (encodings_lossless "YYYY" rfl rfl).2 rfl⟩

example :
    (registry "YYYY").apply (Step.mk "urlEncode" [] "urlEncode") (.text "é€😀%41") [] =
      (.text "%C3%A9%E2%82%AC%F0%9F%98%80%2541", []) := by
  rfl

end Builtin
end Stencil
