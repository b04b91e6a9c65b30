import Stencil.Proofs.Resolve.Template
import Stencil.Proofs.Template.Integer

/-!
# Resolved texts as literals

A resolved text is read as a number, a truth value or a text in quotes, and is itself otherwise. An
integer is never altered: it is read as itself or stays the text of its digits
(`Resolver.evaluate_integer`). A text that is no literal as a whole stays as it is unless it begins
and ends with the same quote, which occurs inside as well (`Resolver.evaluate_keepsText_iff`).
-/

namespace Stencil

open Text

/-- A text that is a literal as a whole: a number spelled as it would be shown, a truth value, or a
text in quotes that do not occur inside. -/
inductive IsLiteral (text : List Char) : Prop
  | number {literal : NumberLiteral} (reads : NumberLiteral.ofText? text = some literal)
    (finite : literal.value.isFinite = true) (shown : literal.value.displayText.toList = text)
  | truth (b : Bool) (spelled : text = (Value.truthText b).toList)
  | quoted {quote : Char} {body : List Char} (opens : Step.isQuote quote = true)
    (within : quote ∉ body) (spelled : text = quote :: (body ++ [quote]))

/-- A text that is no literal is its own value. -/
def KeepsText (text : List Char) (value : Value) : Prop :=
  ¬IsLiteral text → value = .text (String.ofList text)

/-- A text that begins and ends with a quote that it also holds inside. -/
def QuotesInside (text : List Char) : Prop :=
  ∃ quote body, Step.isQuote quote = true ∧ quote ∈ body ∧ text = quote :: (body ++ [quote])

section Literal

variable {text : String} {chars body : List Char} {quote : Char}

/-- A literal number that is shown as it is spelled is converted, and no other text is. -/
theorem exists_shownNumber?_iff : (∃ number, shownNumber? chars = some number) ↔
    ∃ literal, NumberLiteral.ofText? chars = some literal ∧ literal.value.isFinite = true ∧
      literal.value.displayText.toList = chars := by
  rw [shownNumber?]
  cases reads : NumberLiteral.ofText? chars with
  | none => simp
  | some literal =>
    by_cases shown : (literal.value.isFinite && literal.value.displayText.toList == chars) = true
    · rw [Option.bind_eq_bind, Option.bind_some, if_pos shown]
      rw [Bool.and_eq_true, beq_iff_eq] at shown
      exact iff_of_true ⟨_, rfl⟩ ⟨literal, rfl, shown⟩
    · rw [Option.bind_eq_bind, Option.bind_some, if_neg shown]
      refine iff_of_false nofun ?_
      rintro ⟨_, same, finite, spelled⟩
      cases same
      exact shown (by rw [finite, spelled, beq_self_eq_true]; rfl)

/-- A text that is neither a number nor a truth value is read without the quotes around it. -/
theorem literalValue_of_shownNumber?_eq_none (noNumber : shownNumber? (trim text.toList) = none)
    (noTruth : ∀ b, trim text.toList ≠ (Value.truthText b).toList) :
    literalValue text = .text (String.ofList (Step.unquote (trim text.toList))) := by
  rw [literalValue]
  dsimp only
  rw [noNumber]
  dsimp only
  rw [if_neg (show trim text.toList ≠ "true".toList from noTruth true),
    if_neg (show trim text.toList ≠ "false".toList from noTruth false), Step.unquote, trim_trim]
  rcases trim text.toList with - | ⟨quote, - | ⟨second, rest⟩⟩
  · rfl
  · rfl
  · exact (apply_ite (Value.text ∘ String.ofList) _ _ _).symm

/-- What begins with a quote is no number. -/
theorem shownNumber?_of_isQuote (opens : Step.isQuote quote = true) (rest : List Char) :
    shownNumber? (quote :: rest) = none := by
  rw [Step.isQuote, Bool.or_eq_true, beq_iff_eq, beq_iff_eq] at opens
  rcases opens with rfl | rfl <;> rfl

/-- A truth value begins with no quote. -/
theorem not_truth_of_isQuote (opens : Step.isQuote quote = true) (rest : List Char) (b : Bool) :
    quote :: rest ≠ (Value.truthText b).toList := by
  rintro spelled
  rw [Step.isQuote, Bool.or_eq_true, beq_iff_eq, beq_iff_eq] at opens
  rcases opens with rfl | rfl <;> cases b <;> cases spelled

/-- A text between two equal quotes is what stands between them. -/
theorem literalValue_of_quotes (opens : Step.isQuote quote = true)
    (spelled : trim text.toList = quote :: (body ++ [quote])) :
    literalValue text = .text (String.ofList body) := by
  rw [literalValue_of_shownNumber?_eq_none (spelled ▸ shownNumber?_of_isQuote opens _)
    (spelled ▸ not_truth_of_isQuote opens _),
    Step.unquote_of_isWrapped opens ((trim_trim _).trans spelled)]

/-- A text that holds a quote inside its quotes is no literal. -/
theorem not_isLiteral_of_quotesInside (inside : QuotesInside chars) : ¬IsLiteral chars := by
  obtain ⟨quote, body, opens, within, rfl⟩ := inside
  rintro (⟨reads, finite, shown⟩ | ⟨b, spelled⟩ | ⟨_, outside, spelled⟩)
  · obtain ⟨number, converted⟩ := exists_shownNumber?_iff.mpr ⟨_, reads, finite, shown⟩
    rw [shownNumber?_of_isQuote opens] at converted
    cases converted
  · exact not_truth_of_isQuote opens _ b spelled
  · obtain ⟨rfl, same⟩ := List.cons.inj spelled
    rw [List.append_inj_left' same rfl] at within
    exact outside within

/-- The texts that are no literals and yet are altered. -/
theorem keepsText_iff : KeepsText (trim text.toList) (literalValue text) ↔
    ¬QuotesInside (trim text.toList) := by
  constructor
  · rintro keeps inside
    have kept := keeps (not_isLiteral_of_quotesInside inside)
    obtain ⟨quote, body, opens, -, spelled⟩ := inside
    rw [literalValue_of_quotes opens spelled, spelled, Value.text.injEq, String.ofList_inj] at kept
    have longer := congrArg List.length kept
    rw [List.length_cons, List.length_append] at longer
    omega
  · intro apart other
    have noNumber : shownNumber? (trim text.toList) = none := by
      rw [Option.eq_none_iff_forall_ne_some]
      intro number converted
      obtain ⟨literal, reads, finite, shown⟩ := exists_shownNumber?_iff.mp ⟨number, converted⟩
      exact other (.number reads finite shown)
    have bare : ¬Step.IsWrapped (trim text.toList) := by
      rintro ⟨quote, body, opens, spelled⟩
      rw [trim_trim] at spelled
      exact other (.quoted opens
        (fun within => apart ⟨quote, body, opens, within, spelled⟩) spelled)
    rw [literalValue_of_shownNumber?_eq_none noNumber fun b spelled => other (.truth b spelled),
      Step.unquote_of_not_isWrapped bare]

/-- The digits of an integer are read as the integer, if the number that they are read as shows in
the same digits, and stay as they are otherwise. -/
theorem literalValue_integer (n : Int) : literalValue (toString n) =
    if (Binary64.ofDecimal (n < 0) n.natAbs 0).displayText = toString n then .int n
    else .text (toString n) := by
  split_ifs with shown
  · obtain ⟨finite, same⟩ := Binary64.toRat_of_displayText shown
    have converted : shownNumber? (toString n).toList = some (.int n) := by
      rw [shownNumber?, NumberLiteral.ofText?_integer, Option.bind_eq_bind, Option.bind_some,
        NumberLiteral.value_integer]
      dsimp only
      rw [finite, shown, beq_self_eq_true, Binary64.isWhole_of_toRat finite same,
        Binary64.truncate_of_toRat same]
      rfl
    rw [literalValue, trim_integer, converted]
  · have noNumber : shownNumber? (toString n).toList = none := by
      rw [shownNumber?, NumberLiteral.ofText?_integer, Option.bind_eq_bind, Option.bind_some,
        NumberLiteral.value_integer, if_neg]
      rw [Bool.and_eq_true, beq_iff_eq, String.toList_inj]
      exact fun both => shown both.2
    have noTruth (b : Bool) : (toString n).toList ≠ (Value.truthText b).toList := by
      intro spelled
      have member : 'e' ∈ (toString n).toList := by
        rw [spelled]
        cases b <;> decide
      exact not_mem_integer (by decide) member
    rw [literalValue_of_shownNumber?_eq_none ((trim_integer n).symm ▸ noNumber)
      ((trim_integer n).symm ▸ noTruth), trim_integer,
      Step.unquote_of_not_isWrapped (Step.not_isWrapped_integer n), String.ofList_toList]

end Literal

namespace Resolver

variable {resolver : Resolver} {text : String} {source : Context.Source} {evaluation : Evaluation}

/-- An evaluation that succeeds reads the resolved text as a literal. -/
theorem resolve_of_evaluate (evaluates : resolver.evaluate text source = .ok evaluation)
    (succeeds : evaluation.success = true) : ∃ resolution,
      resolver.resolve (.text text) source none = .ok resolution ∧
        evaluation.value = literalValue resolution.text := by
  obtain ⟨found, -, rest⟩ := Outcome.bind_eq_ok.mp evaluates
  dsimp only at rest
  split at rest
  · rename_i resolution resolves
    cases rest
    exact ⟨resolution, resolves, rfl⟩
  · cases rest
    cases succeeds
  · cases rest

/-- **Which texts are kept.** Let an evaluation succeed. A resolved text that is no literal as a
whole is the value, blanks around it aside, exactly if it does not begin and end with a quote that
occurs inside as well. Of a text between two equal quotes, the value is always what stands between
them. -/
theorem evaluate_keepsText_iff (evaluates : resolver.evaluate text source = .ok evaluation)
    (succeeds : evaluation.success = true) : ∃ resolution,
      resolver.resolve (.text text) source none = .ok resolution ∧
      (KeepsText (trim resolution.text.toList) evaluation.value ↔
        ¬QuotesInside (trim resolution.text.toList)) ∧
      ∀ quote body, Step.isQuote quote = true →
        trim resolution.text.toList = quote :: (body ++ [quote]) →
          evaluation.value = .text (String.ofList body) := by
  obtain ⟨resolution, resolves, value⟩ := resolve_of_evaluate evaluates succeeds
  rw [value]
  exact ⟨resolution, resolves, keepsText_iff, fun _ _ => literalValue_of_quotes⟩

/-- An operator between a quoted text and a bare one. -/
theorem evaluate_keepsText_iff_operator :
    let evaluation : Evaluation := ⟨true, .text "'a' + b", none, []⟩
    default.evaluate " 'a' + b " (.live .empty) = .ok evaluation ∧ evaluation.success = true ∧
      ∃ resolution,
        default.resolve (.text " 'a' + b ") (.live .empty) none = .ok resolution ∧
        (KeepsText (trim resolution.text.toList) evaluation.value ↔
          ¬QuotesInside (trim resolution.text.toList)) ∧
        ∀ quote body, Step.isQuote quote = true →
          trim resolution.text.toList = quote :: (body ++ [quote]) →
            evaluation.value = .text (String.ofList body) :=
  ⟨rfl, rfl, evaluate_keepsText_iff rfl rfl⟩

/-- An operator between two quoted texts: the outer quotes, of different texts, are taken away. -/
theorem evaluate_quotesInside :
    default.resolve (.text "'a' + 'b'") (.live .empty) none =
        .ok ⟨.text "'a' + 'b'", true, [], []⟩ ∧
      default.evaluate "'a' + 'b'" (.live .empty) = .ok ⟨true, .text "a' + 'b", none, []⟩ ∧
      ¬KeepsText "'a' + 'b'".toList (.text "a' + 'b") := by
  refine ⟨rfl, rfl, fun keeps => ?_⟩
  have inside : QuotesInside "'a' + 'b'".toList :=
    ⟨'\'', "a' + 'b".toList, rfl, by decide, rfl⟩
  exact absurd (Value.text.inj (keeps (not_isLiteral_of_quotesInside inside))) (by decide)

/-- A template that is one reference to a variable, in a context where that is an integer. -/
theorem resolve_integer (resolver : Resolver) {n : Int}
    (short : n.natAbs < Nat.pow 10 digitLimit) :
    ∃ resolution,
      resolver.resolve (.text "{{x}}")
        (.given (.map [(.text "variables", .map [(.text "x", .int n)])])) none = .ok resolution ∧
      resolution.text = toString n := by
  let reference : Reference := ⟨"{{x}}", "x", ["x"], [⟨"x", []⟩], [], 0, 5⟩
  let filling : Filling := ⟨reference, ⟨.int n, true, [], []⟩, some (toString n)⟩
  have shows : (Value.int n).shown? = .ok (some (toString n)) := by
    have written : integerText n = .ok (toString n) := if_neg (Nat.not_le.mpr short)
    change (integerText n >>= fun text => .ok (some text)) = _
    rw [written, Outcome.ok_bind]
  let context : Context := ⟨[], [("x", .int n)], []⟩
  have loads : (Context.Source.given
      (.map [(.text "variables", .map [(.text "x", .int n)])])).load = .ok context := rfl
  have filled : Filling.ofReference resolver.registry context.merged reference = .ok filling :=
    Filling.ofReference_eq_ok_iff.mpr ⟨rfl, rfl, shows⟩
  have read : Filling.ofText resolver.registry context.merged "{{x}}" = .ok [filling] :=
    Filling.ofText_eq_ok_iff.mpr ⟨rfl, List.forall_mem_singleton.mpr filled⟩
  refine ⟨Filling.resolutionOf resolver.policy "{{x}}" [filling], ?_, ?_⟩
  · rw [resolve_eq_outcome loads read rfl, Filling.outcome]
    exact if_neg fun refused => refused.2 rfl
  · have spliced : splice "{{x}}".toList 0 (Filling.replacements resolver.policy [filling]) =
        (toString n).toList := List.append_nil _
    rw [Filling.resolutionOf, spliced, String.ofList_toList]
    rfl

/-- **Evaluation never alters an integer.** An integer that can be written evaluates to itself or to
the text of its digits, and to itself exactly if the number that the digits are read as shows in the
same digits. -/
theorem evaluate_integer (resolver : Resolver) {n : Int}
    (short : n.natAbs < Nat.pow 10 digitLimit) :
    ∃ value,
      resolver.evaluate "{{x}}"
        (.given (.map [(.text "variables", .map [(.text "x", .int n)])])) =
          .ok ⟨true, value, none, ["x"]⟩ ∧
      (value = .int n ∨ value = .text (toString n)) ∧
      (value = .int n ↔
        (Binary64.read? (toString n).toList).map Binary64.displayText = some (toString n)) := by
  obtain ⟨resolution, resolves, digits⟩ := resolve_integer resolver short
  refine ⟨literalValue (toString n), ?_, ?_, ?_⟩
  · have reads : references "{{x}}" = .ok [⟨"{{x}}", "x", ["x"], [⟨"x", []⟩], [], 0, 5⟩] := rfl
    rw [evaluate, reads, Outcome.ok_bind, resolves]
    rw [← digits]
    rfl
  · rw [literalValue_integer]
    split_ifs
    · exact .inl rfl
    · exact .inr rfl
  · rw [literalValue_integer, Binary64.read?_integer, Option.map_some, Option.some_inj]
    split_ifs with shown
    · exact iff_of_true rfl shown
    · exact iff_of_false nofun shown

/-- An integer that doubles skip stays the text of its digits. -/
theorem evaluate_integer_skipped :
    (9007199254740993 : Int).natAbs < Nat.pow 10 digitLimit ∧
      default.evaluate "{{x}}"
        (.given (.map [(.text "variables", .map [(.text "x", .int 9007199254740993)])])) =
          .ok ⟨true, .text "9007199254740993", none, ["x"]⟩ := by
  have short : (9007199254740993 : Int).natAbs < Nat.pow 10 digitLimit := by decide +kernel
  obtain ⟨value, evaluates, itself | digits, same⟩ := evaluate_integer default short
  · exact absurd (same.mp itself) (by decide +kernel)
  · exact ⟨short, digits ▸ evaluates⟩

end Resolver

end Stencil
