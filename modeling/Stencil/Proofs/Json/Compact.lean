import Stencil.Proofs.Json.Reader

/-!
# Compact text as a written document

The compact text of a document is one of the ways to write it (`Json.IsWritten`), for each kind of
document: escapes stand for the characters that they replace, and an integer has no zeros in front.
-/

namespace Stencil.Json

/-- Whether the text of a document is one that is written for it. -/
def IsWritten (json : Json) : Prop :=
  ∃ written : Written, written.chars = json.chars ∧ written.json = json

theorem isSpace_of_mem_nil : ∀ c ∈ ([] : List Char), isSpace c = true :=
  List.forall_mem_nil _

/-- Nothing between two parts. -/
def Blank.none : Blank :=
  ⟨[], isSpace_of_mem_nil⟩

section Text

/-- The four digits in which the code of a control character is written. -/
theorem exists_unit {code : Nat} (control : code < 0x20) :
    ∃ unit : Unit16, unit.digits = Text.hexText 4 code ∧ unit.number = code := by
  have four : (Text.hexText 4 code).length = 4 := by
    interval_cases code <;> rfl
  have hex : ∀ c ∈ Text.hexText 4 code, (Text.hexValue? c).isSome = true := by
    apply Text.forall_mem_of_all
    interval_cases code <;> rfl
  refine ⟨⟨Text.hexText 4 code, four, hex⟩, rfl, ?_⟩
  rw [Unit16.number]
  interval_cases code <;> rfl

/-- A character inside quotes is written as a part that stands for it. -/
theorem exists_piece (c : Char) :
    ∃ piece : Piece, piece.chars = escapeChar c ∧ piece.meaning = c := by
  rw [escapeChar]
  split_ifs with quote escape newline carriage tab back feed control
  · exact ⟨.escape '"' '"' rfl, rfl, quote.symm⟩
  · exact ⟨.escape '\\' '\\' rfl, rfl, escape.symm⟩
  · exact ⟨.escape 'n' '\n' rfl, rfl, newline.symm⟩
  · exact ⟨.escape 'r' '\r' rfl, rfl, carriage.symm⟩
  · exact ⟨.escape 't' '\t' rfl, rfl, tab.symm⟩
  · exact ⟨.escape 'b' '\x08' rfl, rfl, back.symm⟩
  · exact ⟨.escape 'f' '\x0c' rfl, rfl, feed.symm⟩
  · obtain ⟨unit, digits, number⟩ := exists_unit control
    refine ⟨.code unit (by omega), ?_, ?_⟩
    · rw [Piece.chars, digits]
    · rw [Piece.meaning, number, Char.ofNat_toNat]
  · exact ⟨.bare c ⟨Nat.not_lt.mp control, quote, escape⟩, rfl, rfl⟩

/-- A text is quoted as the parts that stand for its characters. -/
theorem exists_pieces (s : String) :
    ∃ pieces : List Piece, quotedChars pieces = quote s ∧ textOf pieces = s := by
  choose piece chars meaning using exists_piece
  refine ⟨s.toList.map piece, ?_, ?_⟩
  · rw [quotedChars, quote, List.flatMap_map]
    simp only [chars]
  · rw [textOf, List.map_map]
    have same : Piece.meaning ∘ piece = id := funext meaning
    rw [same, List.map_id, String.ofList_toList]

/-- A text is written in one piece. -/
theorem isWritten_text (s : String) : (Json.text s).IsWritten := by
  obtain ⟨pieces, quoted, meaning⟩ := exists_pieces s
  exact ⟨.text pieces, quoted, congrArg Json.text meaning⟩

end Text

section Scalar

/-- The text of null is written so. -/
theorem isWritten_null : Json.null.IsWritten :=
  ⟨.null, rfl, rfl⟩

/-- A truth value is written so. -/
theorem isWritten_bool (b : Bool) : (Json.bool b).IsWritten :=
  ⟨.bool b, rfl, rfl⟩

/-- An integer in its digits. -/
def Number.ofInt (n : Int) : Number where
  negative := decide (n < 0)
  whole := Text.decimalText n.natAbs
  fraction := []
  exponent := none
  given := Text.decimalText_ne_nil _
  decimal := fun _ => Text.isDigit_of_mem_decimalText
  short := Text.head?_decimalText
  fractional := List.forall_mem_nil _

/-- An integer is written as its digits, with a sign if it is negative. -/
theorem Number.chars_ofInt (n : Int) : (Number.ofInt n).chars = (toString n).toList := by
  have unsigned : (Number.ofInt n).unsignedChars = Text.decimalText n.natAbs :=
    Number.unsignedChars_of_isInteger _ rfl
  have sign : (Number.ofInt n).negative = decide (n < 0) := rfl
  have digits (size : Nat) : (Nat.repr size).toList = Text.decimalText size :=
    String.toList_ofList
  rw [Number.chars, unsigned, sign]
  cases n with
  | ofNat size => exact (digits size).symm
  | negSucc size =>
    have minus : toString (Int.negSucc size) = "-" ++ Nat.repr (size + 1) := rfl
    rw [minus, String.toList_append, digits, decide_eq_true (Int.negSucc_lt_zero size)]
    rfl

/-- The number of an integer stands for that integer. -/
theorem Number.json_ofInt (n : Int) : (Number.ofInt n).json = .int n := by
  have denoted : Text.decimalNumber (Number.ofInt n).whole = n.natAbs :=
    Text.decimalNumber_decimalText _
  have sign : (Number.ofInt n).negative = decide (n < 0) := rfl
  rw [Number.json, if_pos (show (Number.ofInt n).isInteger = true from rfl), denoted, sign]
  by_cases negative : n < 0
  · rw [decide_eq_true negative, Int.ofNat_natAbs_of_nonpos (Int.le_of_lt negative)]
    exact congrArg Json.int (Int.neg_neg n)
  · rw [decide_eq_false negative, Int.natAbs_of_nonneg (Int.not_lt.mp negative)]
    rfl

/-- An integer is written in its digits. -/
theorem isWritten_int (n : Int) : (Json.int n).IsWritten :=
  ⟨.number (.ofInt n), Number.chars_ofInt n, Number.json_ofInt n⟩

end Scalar

section Collection

theorem itemChars_cons (item : Json) {rest : List Json} (more : rest ≠ []) :
    itemChars (item :: rest) = item.chars ++ ',' :: itemChars rest := by
  obtain ⟨second, others, rfl⟩ := List.exists_cons_of_ne_nil more
  rfl

theorem memberChars_cons (name : String) (item : Json) {rest : List (String × Json)}
    (more : rest ≠ []) : memberChars ((name, item) :: rest) =
      quote name ++ ':' :: item.chars ++ ',' :: memberChars rest := by
  obtain ⟨second, others, rfl⟩ := List.exists_cons_of_ne_nil more
  rfl

/-- Written items are the items of an array. -/
theorem exists_items {items : List Json} (each : ∀ item ∈ items, item.IsWritten) :
    ∃ parts : WrittenItems, parts.chars true = itemChars items ∧ parts.json = items := by
  induction items with
  | nil => exact ⟨.nil, rfl, rfl⟩
  | cons item rest ih =>
    rw [List.forall_mem_cons] at each
    obtain ⟨part, chars, same⟩ := each.1
    obtain ⟨others, othersChars, othersSame⟩ := ih each.2
    refine ⟨.cons .none part .none others, ?_, by rw [WrittenItems.json, same, othersSame]⟩
    have text : (WrittenItems.cons .none part .none others).chars true =
        part.chars ++ others.chars false := by
      simp [WrittenItems.chars, commaChars, Blank.none]
    rw [text, chars]
    cases others with
    | nil =>
      rw [← othersSame]
      exact List.append_nil _
    | cons before second after more =>
      have filled : rest ≠ [] := othersSame ▸ List.cons_ne_nil _ _
      rw [itemChars_cons item filled, ← othersChars]
      rfl

/-- Written members are the members of an object. -/
theorem exists_members {members : List (String × Json)}
    (each : ∀ member ∈ members, member.2.IsWritten) :
    ∃ parts : WrittenMembers, parts.chars true = memberChars members ∧ parts.json = members := by
  induction members with
  | nil => exact ⟨.nil, rfl, rfl⟩
  | cons member rest ih =>
    obtain ⟨name, item⟩ := member
    rw [List.forall_mem_cons] at each
    obtain ⟨part, chars, same⟩ := each.1
    obtain ⟨pieces, quoted, meaning⟩ := exists_pieces name
    obtain ⟨others, othersChars, othersSame⟩ := ih each.2
    refine ⟨.cons .none pieces .none .none part .none others, ?_,
      by rw [WrittenMembers.json, meaning, same, othersSame]⟩
    have text : (WrittenMembers.cons .none pieces .none .none part .none others).chars true =
        quotedChars pieces ++ ':' :: part.chars ++ others.chars false := by
      simp [WrittenMembers.chars, commaChars, Blank.none]
    rw [text, quoted, chars]
    cases others with
    | nil =>
      rw [← othersSame]
      exact List.append_nil _
    | cons before next beforeColon afterColon second after more =>
      have filled : rest ≠ [] := othersSame ▸ List.cons_ne_nil _ _
      rw [memberChars_cons name item filled, ← othersChars]
      rfl

/-- An array is written so if its items are. -/
theorem isWritten_array {items : List Json} (each : ∀ item ∈ items, item.IsWritten) :
    (Json.array items).IsWritten := by
  obtain ⟨parts, chars, same⟩ := exists_items each
  refine ⟨.array .none parts, ?_, congrArg Json.array same⟩
  rw [Written.chars, chars]
  rfl

/-- An object is written so if its members are. -/
theorem isWritten_object {members : List (String × Json)}
    (each : ∀ member ∈ members, member.2.IsWritten) : (Json.object members).IsWritten := by
  obtain ⟨parts, chars, same⟩ := exists_members each
  refine ⟨.object .none parts, ?_, congrArg Json.object same⟩
  rw [Written.chars, chars]
  rfl

end Collection

/-- The text of a document that is written as it stands is a text written for it alone. -/
theorem exists_document {json : Json} (isWritten : json.IsWritten) :
    (∃ document : Document, document.text = json.render) ∧
      ∀ document : Document, document.text = json.render → document.root.json = json := by
  obtain ⟨written, chars, same⟩ := isWritten
  have text : (Document.mk .none written .none).text = json.render := by
    rw [Document.text, render, chars]
    congr 1
    exact List.append_nil _
  refine ⟨⟨_, text⟩, fun document rendered => ?_⟩
  rw [Document.json_unique (rendered.trans text.symm)]
  exact same

end Stencil.Json
