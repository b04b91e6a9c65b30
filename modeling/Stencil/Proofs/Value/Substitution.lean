import Stencil.Proofs.Binary64.Decimal
import Stencil.Proofs.Value.Json

/-!
# Text in place of a collection

The text put in place of a reference to a collection is its JSON text, and the fixed word stands
only for a collection without one (`Value.substitution_eq_word_iff`), as no document begins as the
word does. `Value.jsonText_faithful` says all that holds of the JSON text of a value.
-/

namespace Stencil

open Outcome

namespace Value

variable {value : Value} {items : List Value}

/-- Whether a value is shown as its JSON text. -/
def isCollection : Value → Bool
  | .list _ | .tuple _ | .set _ | .map _ | .bytes _ => true
  | _ => false

/-- Items do not begin with a character that none of them begins with. -/
theorem head?_itemChars_ne {documents : List Json} {c : Char} (notComma : c ≠ ',')
    (each : ∀ document ∈ documents, document.chars.head? ≠ some c) :
    (Json.itemChars documents).head? ≠ some c := by
  cases documents with
  | nil => exact nofun
  | cons document rest =>
    rw [List.forall_mem_cons] at each
    cases rest with
    | nil => exact each.1
    | cons second others =>
      rw [Json.itemChars_cons document (List.cons_ne_nil second others), List.head?_append]
      intro first
      rcases Option.or_eq_some_iff.mp first with here | ⟨-, comma⟩
      · exact each.1 here
      · exact notComma (Option.some.inj comma).symm

/-- The text of a finite number holds no large O. -/
theorem not_mem_plainText {x : Binary64} (finite : x.isFinite = true) :
    'O' ∉ x.plainText.toList := by
  cases x with
  | nan => cases finite
  | infinity negative => cases finite
  | finite negative mantissa exponent canonical =>
    intro member
    rw [Binary64.plainText, String.toList_ofList] at member
    obtain digit | marks | point := Binary64.occurs_of_mem_finiteText member
    · cases digit
    · exact absurd marks (by decide)
    · exact absurd point (by decide)

/-- No document of a value begins as the fixed word goes on. -/
theorem head?_chars_ne {document : Json} (made : value.toJson = .ok document) :
    document.chars.head? ≠ some 'O' := by
  have begins {c : Char} (first : document.chars.head? = some c) (apart : c ≠ 'O') :
      document.chars.head? ≠ some 'O' := by
    rw [first]
    exact fun same => apart (Option.some.inj same)
  obtain scalar | ⟨x, rfl, finite, rfl⟩ | ⟨documents, -, rfl, -⟩ | ⟨entries, members, -, rfl, -⟩ :=
    toJson_cases made
  · obtain ⟨written, chars, -⟩ := Json.isWritten_of_scalar? scalar
    obtain ⟨c, known, first⟩ := written.head?_chars
    rw [chars] at first
    refine begins first ?_
    rintro rfl
    exact absurd known (by decide)
  · exact fun first => not_mem_plainText finite (List.mem_of_mem_head? first)
  · exact begins rfl (by decide)
  · exact begins rfl (by decide)

/-- A collection whose items are documents of values is not the fixed word. -/
theorem render_array_ne {documents : List Json} (made : itemsJson items = .ok documents) :
    (Json.array documents).render ≠ "[Object]" := by
  intro same
  have chars : '[' :: (Json.itemChars documents ++ [']']) = '[' :: "Object]".toList :=
    String.toList_ofList.symm.trans (congrArg String.toList same)
  have first : (Json.itemChars documents).head?.or (some ']') = some 'O' := by
    have behind := congrArg List.head? (List.cons.inj chars).2
    rwa [List.head?_append] at behind
  have inner : (Json.itemChars documents).head? = some 'O' := by
    rcases Option.or_eq_some_iff.mp first with here | ⟨-, last⟩
    · exact here
    · exact absurd (Option.some.inj last) (by decide)
  refine head?_itemChars_ne (by decide) (fun document member => ?_) inner
  rw [itemsJson_eq_mapM] at made
  obtain ⟨item, -, becomes⟩ := exists_of_mem_mapM made member
  exact head?_chars_ne becomes

/-- No collection is written like the word for one that cannot be. -/
theorem jsonText_ne {text : String} (collection : value.isCollection = true)
    (written : value.jsonText = .ok text) : text ≠ "[Object]" := by
  obtain ⟨document, made, same⟩ := bind_eq_ok.mp written
  cases same
  cases value with
  | list items | tuple items | set items =>
    obtain ⟨documents, taken, same⟩ := bind_eq_ok.mp made
    cases same
    exact render_array_ne taken
  | map entries =>
    obtain ⟨members, -, same⟩ := bind_eq_ok.mp made
    cases same
    intro word
    have chars := congrArg String.toList word
    rw [Json.render, String.toList_ofList] at chars
    cases chars
  | bytes data => cases made
  | _ => cases collection

/-- A collection is filled in as its own text. -/
theorem substitution_of_isCollection (collection : value.isCollection = true) :
    value.substitution = .ok value.collectionText := by
  cases value with
  | list _ | tuple _ | set _ | map _ | bytes _ => rfl
  | _ => cases collection

/-- A collection with a JSON text is filled in as that text. -/
theorem substitution_of_jsonText {text : String} (collection : value.isCollection = true)
    (written : value.jsonText = .ok text) : value.substitution = .ok text := by
  rw [substitution_of_isCollection collection, collectionText, written]

/-- The fixed word stands for the collections that have no JSON text. -/
theorem substitution_eq_word_iff (collection : value.isCollection = true) :
    value.substitution = .ok "[Object]" ↔ ¬Succeeds value.jsonText := by
  constructor
  · rintro word ⟨text, written⟩
    rw [substitution_of_jsonText collection written] at word
    exact jsonText_ne collection written (Except.ok.inj word)
  · intro fails
    rw [substitution_of_isCollection collection, collectionText]
    cases written : value.jsonText with
    | ok text => exact absurd ⟨text, written⟩ fails
    | error fault => rfl

/-- A value has a JSON text unless a byte string stands in it or a map with a key that is no name.
If the format has forms for all that stands in it, the text is a document that is read as the value
and as nothing else. The text put in place of a reference to a collection is its JSON text, or the
fixed word if it has none. -/
theorem jsonText_faithful (fits : value.integersFit = true) :
    (¬Succeeds value.jsonText ↔ ∃ part ∈ value.inside, part.lacksJson = true) ∧
      (∀ text, value.jsonText = .ok text →
        (∀ part ∈ value.inside, part.isExact = true ∧ part.HasDistinctKeys) →
          Json.Denotes text value.plain) ∧
      (value.isCollection = true →
        (∀ text, value.jsonText = .ok text → value.substitution = .ok text) ∧
          (value.substitution = .ok "[Object]" ↔ ¬Succeeds value.jsonText)) := by
  refine ⟨?_, fun text written exact => denotes_of_jsonText exact written, fun collection =>
    ⟨fun text => substitution_of_jsonText collection, substitution_eq_word_iff collection⟩⟩
  rw [jsonText_succeeds_iff fits]
  simp

/-- A list with parts of many kinds, and one that holds a byte string. -/
theorem jsonText_faithful_nested :
    let value : Value := .list [.undefined, .tuple [.text "a\n", .set [.int 1]],
      .map [(.text "b", .float .nan), (.text "a", .bool true)]]
    let text := "[null,[\"a\\n\",[1]],\x7b\"b\":null,\"a\":true\x7d]"
    value.integersFit = true ∧ (∀ part ∈ value.inside, part.isExact = true ∧ part.HasDistinctKeys) ∧
      value.jsonText = .ok text ∧ value.substitution = .ok text ∧
      Json.Denotes text (.list [.null, .list [.text "a\n", .list [.int 1]],
        .map [(.text "b", .null), (.text "a", .bool true)]]) ∧
      (Value.list [.tuple [.bytes [0]], .null]).substitution = .ok "[Object]" := by
  intro value text
  have fits : value.integersFit = true := by decide +kernel
  have exact : ∀ part ∈ value.inside, part.isExact = true ∧ part.HasDistinctKeys := by decide
  have written : value.jsonText = .ok text := by
    have one : integerText 1 = .ok "1" := by
      rw [integerText, if_neg (by decide +kernel)]
      rfl
    simp only [value, jsonText, toJson, itemsJson, entriesJson, memberName, integerJson, one]
    rfl
  obtain ⟨-, denotes, shown⟩ := jsonText_faithful fits
  obtain ⟨broken, -, word⟩ :=
    @jsonText_faithful (.list [.tuple [.bytes [0]], .null]) (by decide)
  refine ⟨fits, exact, written, (shown rfl).1 text written, denotes text written exact,
    (word rfl).2.mpr (broken.mpr ⟨.bytes [0], ?_, rfl⟩)⟩
  simp [inside, insideItems]

end Value
end Stencil
