import Stencil.Proofs.Template.Append
import Stencil.Proofs.Template.Build
import Stencil.Proofs.Template.Grammar
import Stencil.Proofs.Template.Single

/-!
# References renamed

Renaming a reference replaces its text wherever it occurs, without looking for references. That is
the same as renaming the hole among the tokens of the text (`Token.tokens_replaceAll`) if no three
opening braces stand together: then the text of the old reference occurs where it is a hole and
nowhere else, and the text of the new one makes no hole with what stands around it. The main
statement is `Reference.renames_iff`: exactly the references that are written as the old one are
renamed, unless one of the text or the new one has an index with too many digits.
-/

namespace Stencil

open Outcome

namespace Text

section Replace

variable {old new : List Char}

/-- Replacing all occurrences is replacing them from the beginning. -/
theorem replaceAll_eq (filled : old ≠ []) (new text : List Char) :
    replaceAll old new text = replaceFrom old new 0 text :=
  if_neg (by simpa using filled)

theorem replaceAll_nil (filled : old ≠ []) (new : List Char) : replaceAll old new [] = [] :=
  replaceAll_eq filled new []

/-- An occurrence at the front of a text is replaced. -/
theorem replaceAll_append_self (filled : old ≠ []) (new rest : List Char) :
    replaceAll old new (old ++ rest) = new ++ replaceAll old new rest := by
  obtain ⟨c, behind, rfl⟩ := List.exists_cons_of_ne_nil filled
  have occurs : (c :: behind).isPrefixOf (c :: (behind ++ rest)) = true :=
    List.isPrefixOf_iff_prefix.mpr (List.prefix_append (c :: behind) rest)
  rw [replaceAll_eq filled, replaceAll_eq filled, List.cons_append, replaceFrom, if_pos occurs,
    replaceFrom_eq_drop, List.length_cons, Nat.add_sub_cancel, List.drop_left]

theorem replaceAll_cons (filled : old ≠ []) {c : Char} {rest : List Char}
    (free : ¬ old <+: c :: rest) :
    replaceAll old new (c :: rest) = c :: replaceAll old new rest := by
  rw [replaceAll_eq filled, replaceAll_eq filled, replaceFrom,
    if_neg fun occurs => free (List.isPrefixOf_iff_prefix.mp occurs)]

/-- A front in which no occurrence begins stays as it is. -/
theorem replaceAll_append (filled : old ≠ []) {front rest : List Char}
    (free : ∀ behind, behind <:+ front → behind ≠ [] → ¬ old <+: behind ++ rest) :
    replaceAll old new (front ++ rest) = front ++ replaceAll old new rest := by
  induction front with
  | nil => rfl
  | cons c front ih =>
    have here : ¬ old <+: c :: (front ++ rest) := free _ List.suffix_rfl (List.cons_ne_nil c front)
    rw [List.cons_append, replaceAll_cons filled here, List.cons_append,
      ih fun behind inside => free behind (inside.trans (List.suffix_cons c front))]

end Replace

end Text

namespace Token

/-- A text that can be the body of a hole and opens nothing with the braces in front of it. -/
structure IsBare (body : List Char) : Prop extends Enclosable body where
  alone : body.head? ≠ some '{'

/-- The token with a hole of one body given another. -/
def renamed (old new : List Char) : Token → Token
  | .char c => .char c
  | .hole body => .hole (if body = old then new else body)

section Rename

variable {old new text body rest : List Char}

theorem holeSource_ne_nil (body : List Char) : holeSource body ≠ [] :=
  List.cons_ne_nil _ _

/-- No body ends behind a pair of opening braces. -/
theorem body?_holeSource (body rest : List Char) : body? (holeSource body ++ rest) = none := by
  simp [holeSource, body?]

theorem hole?_cons (c : Char) (rest : List Char) :
    hole? (c :: rest) =
      if c = '{' ∧ rest.head? = some '{' then body? rest.tail else none := by
  split_ifs with opens
  · obtain ⟨rfl, second⟩ := opens
    obtain ⟨behind, rfl⟩ := List.head?_eq_some_iff.mp second
    rfl
  · rw [hole?.eq_def]
    split
    · rename_i behind same
      obtain ⟨rfl, rfl⟩ := List.cons.inj same
      exact absurd ⟨rfl, rfl⟩ opens
    · rfl

/-- A text begins as it did before holes in it were replaced. -/
theorem head?_replaceAll (old new text : List Char) :
    (Text.replaceAll (holeSource old) (holeSource new) text).head? = text.head? := by
  have filled := holeSource_ne_nil old
  cases text with
  | nil => rw [Text.replaceAll_nil filled]
  | cons c rest =>
    by_cases occurs : holeSource old <+: c :: rest
    · obtain ⟨behind, same⟩ := occurs
      rw [← same, Text.replaceAll_append_self filled]
      rfl
    · rw [Text.replaceAll_cons filled occurs]
      rfl

/-- The body that a text begins with stays when holes behind it are replaced. -/
theorem body?_replaceAll (old new text : List Char) :
    body? (Text.replaceAll (holeSource old) (holeSource new) text) = body? text := by
  have filled := holeSource_ne_nil old
  induction text with
  | nil => rw [Text.replaceAll_nil filled]
  | cons c rest ih =>
    by_cases occurs : holeSource old <+: c :: rest
    · obtain ⟨behind, same⟩ := occurs
      rw [← same, Text.replaceAll_append_self filled, body?_holeSource, body?_holeSource]
    · rw [Text.replaceAll_cons filled occurs, body?, body?, head?_replaceAll, ih]

/-- Replacing holes makes no hole of a character that begins none, if no three opening braces stand
together. -/
theorem hole?_replaceAll_eq_none {c : Char} (plain : ¬ ['{', '{', '{'] <:+: c :: rest)
    (solid : hole? (c :: rest) = none) :
    hole? (c :: Text.replaceAll (holeSource old) (holeSource new) rest) = none := by
  rw [hole?_cons] at solid ⊢
  rw [head?_replaceAll]
  split_ifs at solid ⊢ with opens
  · obtain ⟨rfl, second⟩ := opens
    obtain ⟨behind, rfl⟩ := List.head?_eq_some_iff.mp second
    have free : ¬ holeSource old <+: '{' :: behind := by
      intro occurs
      have pair : ['{', '{'] <+: '{' :: behind :=
        (List.prefix_append ['{', '{'] (old ++ ['}', '}'])).trans occurs
      exact plain ((List.prefix_cons_inj '{').mpr pair).isInfix
    rw [Text.replaceAll_cons (holeSource_ne_nil old) free, List.tail_cons, body?_replaceAll]
    exact solid
  · rfl

/-- Behind the body of a hole no pair of opening braces begins before the hole ends. -/
theorem not_opens_of_suffix (inner : Enclosable body) {behind : List Char}
    (inside : behind <:+ body ++ ['}', '}']) (some : behind ≠ []) (rest : List Char) :
    ¬ ['{', '{'] <+: behind ++ rest := by
  induction body with
  | nil =>
    obtain rfl | inside := List.suffix_cons_iff.mp inside
    · simp
    · obtain rfl | inside := List.suffix_cons_iff.mp inside
      · simp
      · exact absurd (List.suffix_nil.mp inside) some
  | cons c body ih =>
    obtain ⟨-, alone, others⟩ := enclosable_cons_iff.mp inner
    obtain rfl | inside := List.suffix_cons_iff.mp inside
    · intro opens
      obtain ⟨first, second⟩ := List.cons_prefix_cons.mp opens
      refine alone ⟨first.symm, ?_⟩
      cases body with
      | nil => simp at second
      | cons d body => simpa [eq_comm] using second
    · exact ih others inside

/-- In a hole with a bare body, opening braces stand together at its front only. -/
theorem eq_of_opens (bare : IsBare body) {behind : List Char} (inside : behind <:+ holeSource body)
    (some : behind ≠ []) (opens : ['{', '{'] <+: behind ++ rest) : behind = holeSource body := by
  obtain rfl | inside := List.suffix_cons_iff.mp inside
  · rfl
  obtain rfl | inside := List.suffix_cons_iff.mp inside
  · -- the second brace would stand in front of a third
    obtain ⟨-, second⟩ := List.cons_prefix_cons.mp opens
    refine absurd ?_ bare.alone
    cases body with
    | nil => simp at second
    | cons d body => simpa [eq_comm] using second
  · exact absurd opens (not_opens_of_suffix bare.toEnclosable inside some rest)

/-- A hole with another body stays where one is replaced. -/
theorem replaceAll_holeSource_append (bare : IsBare body) (inner : Enclosable old)
    (differ : body ≠ old) (new rest : List Char) :
    Text.replaceAll (holeSource old) (holeSource new) (holeSource body ++ rest) =
      holeSource body ++ Text.replaceAll (holeSource old) (holeSource new) rest := by
  refine Text.replaceAll_append (holeSource_ne_nil old) fun behind inside some occurs => ?_
  have opens : ['{', '{'] <+: behind ++ rest :=
    (List.prefix_append ['{', '{'] (old ++ ['}', '}'])).trans occurs
  rw [eq_of_opens bare inside some opens] at occurs
  obtain ⟨after, same⟩ := occurs
  have found := hole?_holeSource inner after
  rw [same, hole?_holeSource bare.toEnclosable] at found
  exact differ (Option.some.inj found)

/-- **Replacing a hole renames it among the tokens** and leaves the other tokens as they are. -/
theorem tokens_replaceAll (plain : ¬ ['{', '{', '{'] <:+: text) (bareOld : IsBare old)
    (bareNew : IsBare new) :
    tokens (Text.replaceAll (holeSource old) (holeSource new) text) =
      (tokens text).map (renamed old new) := by
  have filled := holeSource_ne_nil old
  induction text using tokens_induction with
  | nil =>
    rw [Text.replaceAll_nil filled]
    rfl
  | char c rest solid ih =>
    have free : ¬ holeSource old <+: c :: rest := by
      rintro ⟨behind, same⟩
      rw [← same, hole?_holeSource bareOld.toEnclosable] at solid
      cases solid
    have still := @hole?_replaceAll_eq_none old new rest c plain solid
    have plainRest : ¬ ['{', '{', '{'] <:+: rest := fun inside => plain (List.infix_cons inside)
    rw [Text.replaceAll_cons filled free, tokens_cons still, tokens_cons solid, ih plainRest]
    rfl
  | hole body rest found ih =>
    have inner := enclosable_of_hole? found
    have bare : IsBare body := by
      refine ⟨inner, fun third => plain ?_⟩
      obtain ⟨behind, rfl⟩ := List.head?_eq_some_iff.mp third
      exact (List.prefix_append ['{', '{', '{'] (behind ++ ['}', '}'] ++ rest)).isInfix
    have plainRest : ¬ ['{', '{', '{'] <:+: rest := fun inside =>
      plain (inside.trans (List.suffix_append _ rest).isInfix)
    rw [tokens_hole found, List.map_cons, ← ih plainRest, renamed]
    by_cases same : body = old
    · rw [if_pos same, same, Text.replaceAll_append_self filled,
        tokens_hole (hole?_holeSource bareNew.toEnclosable _)]
    · rw [if_neg same, replaceAll_holeSource_append bare bareOld.toEnclosable same,
        tokens_hole (hole?_holeSource inner _)]

/-- The bodies of renamed tokens are the renamed bodies. -/
theorem bodies_map_renamed (old new : List Char) (tokens : List Token) :
    bodies (tokens.map (renamed old new)) =
      (bodies tokens).map fun body => if body = old then new else body := by
  induction tokens with
  | nil => rfl
  | cons token rest ih =>
    cases token with
    | char c => exact ih
    | hole body => exact congrArg (_ :: ·) ih

end Rename

/-- The texts that the holes among tokens leave: in front of the first, between them and behind the
last. -/
def gaps : List Token → List (List Char)
  | [] => [[]]
  | .char c :: rest => (gaps rest).modifyHead (c :: ·)
  | .hole _ :: rest => [] :: gaps rest

/-- Renaming changes nothing between the holes. -/
theorem gaps_map_renamed (old new : List Char) (tokens : List Token) :
    gaps (tokens.map (renamed old new)) = gaps tokens := by
  induction tokens with
  | nil => rfl
  | cons token rest ih =>
    cases token with
    | char c => exact congrArg (List.modifyHead (c :: ·)) ih
    | hole body => exact congrArg ([] :: ·) ih

end Token

namespace Reference

/-- The texts that references leave from a position on: in front of the first, between them and
behind the last. -/
def gaps (text : List Char) : (position : Nat) → List Reference → List (List Char)
  | position, [] => [text.drop position]
  | position, reference :: rest =>
    text.extract position reference.start :: gaps text reference.stop rest

/-- A character in front of every reference belongs to the first gap. -/
theorem gaps_char {text : List Char} {position : Nat} {c : Char} {rest : List Char}
    {found : List Reference} (front : text.drop position = c :: rest)
    (behind : ∀ reference ∈ found, position < reference.start) :
    gaps text position found = (gaps text (position + 1) found).modifyHead (c :: ·) := by
  have next : text.drop (position + 1) = rest := by rw [← List.tail_drop, front, List.tail_cons]
  cases found with
  | nil =>
    rw [gaps, gaps, front, next]
    rfl
  | cons reference others =>
    obtain ⟨size, far⟩ := Nat.exists_eq_add_of_le (behind reference List.mem_cons_self)
    have wide : reference.start - position = size + 1 := by omega
    have narrow : reference.start - (position + 1) = size := by omega
    rw [gaps, gaps, List.extract_eq_take_drop, List.extract_eq_take_drop, front, next, wide, narrow]
    rfl

/-- References leave the texts that their holes leave. -/
theorem gaps_eq {text : List Char} {position : Nat} {tokens : List Token} {found : List Reference}
    (spelled : text.drop position = tokens.flatMap Token.source)
    (read : ofTokens position tokens = .ok found) :
    gaps text position found = Token.gaps tokens := by
  induction tokens generalizing position found with
  | nil =>
    cases read
    rw [gaps, spelled]
    rfl
  | cons token rest ih =>
    rw [List.flatMap_cons] at spelled
    cases token with
    | char c =>
      have spelledRest : text.drop (position + 1) = rest.flatMap Token.source := by
        rw [← List.drop_drop, spelled, Token.source, List.singleton_append, List.drop_one,
          List.tail_cons]
      have readRest : ofTokens (position + 1) rest = .ok found := read
      have behind : ∀ reference ∈ found, position < reference.start := by
        intro reference member
        have taken : (reference.start, reference.stop) ∈ Token.spans (position + 1) rest := by
          rw [← spans_of_ofTokens readRest]
          exact List.mem_map.mpr ⟨reference, member, rfl⟩
        exact (Token.le_of_mem_spans taken).1
      rw [gaps_char spelled behind, ih spelledRest readRest]
      rfl
    | hole body =>
      obtain ⟨reference, others, hereRead, restRead, rfl⟩ := ofTokens_hole_eq_ok.mp read
      obtain ⟨-, starts, stops⟩ := span_of_ofHole hereRead
      have spelledRest : text.drop (position + body.length + 4) = rest.flatMap Token.source := by
        rw [Nat.add_assoc, ← Token.length_holeSource, ← List.drop_drop, spelled, Token.source,
          List.drop_left]
      rw [gaps, starts, stops, List.extract_eq_take_drop, Nat.sub_self, List.take_zero,
        ih spelledRest restRead]
      rfl

/-- References are written as the holes that they are read from. -/
theorem map_raw_of_ofTokens {position : Nat} {tokens : List Token} {found : List Reference}
    (read : ofTokens position tokens = .ok found) :
    found.map (·.raw) =
      (Token.bodies tokens).map fun body => String.ofList (Token.holeSource body) := by
  induction tokens generalizing position found with
  | nil =>
    cases read
    rfl
  | cons token rest ih =>
    cases token with
    | char c => exact ih read
    | hole body =>
      obtain ⟨reference, others, hereRead, restRead, rfl⟩ := ofTokens_hole_eq_ok.mp read
      rw [List.map_cons, (span_of_ofHole hereRead).1, ih restRead]
      rfl

/-- Tokens spell references if and only if the indices of their bodies fit. -/
theorem ofTokens_succeeds_iff {position : Nat} {tokens : List Token} :
    Succeeds (ofTokens position tokens) ↔
      ∀ body ∈ Token.bodies tokens, Path.IndexesFit (pathIn body) := by
  induction tokens generalizing position with
  | nil => exact ⟨fun _ => by simp [Token.bodies], fun _ => succeeds_ok _⟩
  | cons token rest ih =>
    cases token with
    | char c => exact ih
    | hole body =>
      have here : Succeeds (ofHole position body) ↔ Path.IndexesFit (pathIn body) :=
        succeeds_map_iff.trans Path.parse_succeeds_iff
      rw [Token.bodies, List.forall_mem_cons, ← here, ← ih]
      constructor
      · rintro ⟨found, read⟩
        obtain ⟨reference, others, hereRead, restRead, -⟩ := ofTokens_hole_eq_ok.mp read
        exact ⟨⟨reference, hereRead⟩, others, restRead⟩
      · rintro ⟨⟨reference, hereRead⟩, others, restRead⟩
        exact ⟨_, ofTokens_hole_eq_ok.mpr ⟨reference, others, hereRead, restRead, rfl⟩⟩

/-- **A text is read as references** unless one of their indexes has too many digits. -/
theorem references_succeeds_iff {text : String} : Succeeds (references text) ↔ HolesFit text :=
  ofTokens_succeeds_iff

/-- A braced body is a hole. -/
theorem toList_braced (body : String) : (braced body).toList = Token.holeSource body.toList := by
  simp [braced, Token.holeSource]

/-- A hole is a braced name if and only if its body is the name. -/
theorem ofList_holeSource_eq_braced_iff {body : List Char} {name : String} :
    String.ofList (Token.holeSource body) = braced name ↔ body = name.toList := by
  rw [← String.toList_inj, String.toList_ofList, toList_braced]
  simp [Token.holeSource]

/-- The texts that the references of a text leave are those that its holes leave. -/
theorem gaps_references {text : String} {found : List Reference}
    (read : references text = .ok found) :
    gaps text.toList 0 found = Token.gaps (Token.tokens text.toList) :=
  gaps_eq (Token.source_tokens text.toList).symm read

/-- What renaming a reference of a text should lead to: the references that are written as the old
one are written as the new one, the others as they were, with the same texts around them. -/
def Renames (text old new : String) : Prop :=
  ∃ found again, references text = .ok found ∧ references (replace text old new) = .ok again ∧
    again.map (·.raw) = (found.map (·.raw)).map (fun raw => if raw = old then new else raw) ∧
    gaps (replace text old new).toList 0 again = gaps text.toList 0 found

section Text

variable {text old new : String}

/-- Replacing a braced body renames the tokens of the text. -/
theorem tokens_replace (plain : ¬ ['{', '{', '{'] <:+: text.toList)
    (bareOld : Token.IsBare old.toList) (bareNew : Token.IsBare new.toList) :
    Token.tokens (replace text (braced old) (braced new)).toList =
      (Token.tokens text.toList).map (Token.renamed old.toList new.toList) := by
  rw [replace, String.toList_ofList, toList_braced, toList_braced,
    Token.tokens_replaceAll plain bareOld bareNew]

/-- The holes still fit after a replacement if and only if those of the new body do. -/
theorem holesFit_replace_iff (plain : ¬ ['{', '{', '{'] <:+: text.toList)
    (bareOld : Token.IsBare old.toList) (bareNew : Token.IsBare new.toList) :
    HolesFit text ∧ HolesFit (replace text (braced old) (braced new)) ↔
      HolesFit text ∧ (old.toList ∈ Token.bodies (Token.tokens text.toList) →
        Path.IndexesFit (pathIn new.toList)) := by
  rw [HolesFit, HolesFit, tokens_replace plain bareOld bareNew, Token.bodies_map_renamed,
    List.forall_mem_map]
  refine and_congr_right fun fit => ⟨fun fitAgain occurs => ?_, fun fits body member => ?_⟩
  · have own := fitAgain old.toList occurs
    rwa [if_pos rfl] at own
  · split_ifs with same
    · exact fits (same ▸ member)
    · exact fit body member

/-- **Renaming a reference** renames the references that are written as it is, and only these,
whatever they stand between, exactly if the indexes of the text can be read, and those of the new
reference if the old one is in the text. No three opening braces may stand together in the text. -/
theorem renames_iff (plain : ¬ ['{', '{', '{'] <:+: text.toList)
    (bareOld : Token.IsBare old.toList) (bareNew : Token.IsBare new.toList) :
    Renames text (braced old) (braced new) ↔
      HolesFit text ∧ (old.toList ∈ Token.bodies (Token.tokens text.toList) →
        Path.IndexesFit (pathIn new.toList)) := by
  rw [← holesFit_replace_iff plain bareOld bareNew, ← references_succeeds_iff,
    ← references_succeeds_iff]
  constructor
  · rintro ⟨found, again, read, readAgain, -⟩
    exact ⟨⟨found, read⟩, again, readAgain⟩
  · rintro ⟨⟨found, read⟩, again, readAgain⟩
    refine ⟨found, again, read, readAgain, ?_, ?_⟩
    · rw [map_raw_of_ofTokens readAgain, map_raw_of_ofTokens read,
        tokens_replace plain bareOld bareNew, Token.bodies_map_renamed, List.map_map, List.map_map]
      refine List.map_congr_left fun body _ => ?_
      by_cases same : body = old.toList
      · have written := ofList_holeSource_eq_braced_iff.mpr same
        rw [Function.comp_apply, Function.comp_apply, if_pos same, if_pos written]
        exact ofList_holeSource_eq_braced_iff.mpr rfl
      · have differ := fun written => same (ofList_holeSource_eq_braced_iff.mp written)
        rw [Function.comp_apply, Function.comp_apply, if_neg same, if_neg differ]
    · rw [gaps_references readAgain, gaps_references read, tokens_replace plain bareOld bareNew,
        Token.gaps_map_renamed]

end Text

/-- A new reference with an index and a brace at its end, between single braces of the text. -/
theorem renames_iff_brace :
    HolesFit "{{a}}\x7d {{b|trim}}{{a}}\x7b" ∧
      Renames "{{a}}\x7d {{b|trim}}{{a}}\x7b" (braced "a") (braced "c[0]|default:\x7b") := by
  have fit : HolesFit "{{a}}\x7d {{b|trim}}{{a}}\x7b" := references_succeeds_iff.mp ⟨_, rfl⟩
  refine ⟨fit, (renames_iff ?_ ⟨⟨?_, ?_⟩, ?_⟩ ⟨⟨?_, ?_⟩, ?_⟩).mpr ⟨fit, fun _ =>
    Path.parse_succeeds_iff.mp ⟨[⟨"c", [0]⟩], rfl⟩⟩⟩ <;> decide

section Overlong

/-- The digits of an index with a digit too many. -/
def overlong : List Char :=
  List.replicate digitLimit '0' ++ ['1']

/-- The overlong digits are a numeral. -/
theorem isNumeral_overlong : Path.IsNumeral overlong := by
  refine ⟨List.append_ne_nil_of_right_ne_nil _ (List.cons_ne_nil _ _), fun c member => ?_⟩
  rcases List.mem_append.mp member with zero | one
  · rw [List.eq_of_mem_replicate zero]
    decide
  · rw [List.mem_singleton.mp one]
    decide

/-- The body of a reference whose path has an index with a digit too many. -/
def overlongBody : List Char :=
  ['a'] ++ Path.bracketed [overlong]

/-- The overlong body has no other signs. -/
theorem not_mem_overlongBody {c : Char} (other : c ∉ ['a', '[', ']'])
    (sign : Text.isDecimal c = false) : c ∉ overlongBody := by
  rw [List.mem_cons, List.mem_cons, List.mem_singleton, not_or, not_or] at other
  intro member
  rcases List.mem_append.mp member with letter | index
  · exact other.1 (List.mem_singleton.mp letter)
  · rcases Path.of_mem_bracketed (List.forall_mem_singleton.mpr isNumeral_overlong) index with
      opening | closing | decimal
    · exact other.2.1 opening
    · exact other.2.2 closing
    · rw [sign] at decimal
      cases decimal

/-- The overlong body can stand between braces. -/
theorem isBare_overlongBody : Token.IsBare overlongBody where
  noClosing := not_mem_overlongBody (by decide) (by decide)
  noOpening pair :=
    not_mem_overlongBody (by decide) (by decide) (pair.subset List.mem_cons_self)
  alone := by simp [overlongBody]

/-- The index of the overlong body does not fit. -/
theorem not_indexesFit_overlongBody : ¬ Path.IndexesFit (pathIn overlongBody) := by
  have solid : Text.trim overlongBody = overlongBody := Path.trim_of_isValidPart
    (Path.isValidPart_bracketed rfl (List.forall_mem_singleton.mpr isNumeral_overlong))
  have noBar : '|' ∉ overlongBody := not_mem_overlongBody (by decide) (by decide)
  have noPoint : '.' ∉ overlongBody := not_mem_overlongBody (by decide) (by decide)
  have path : pathIn overlongBody = String.ofList overlongBody := by
    rw [pathIn, piecesOf_eq, List.splitOn_eq_singleton noBar, List.map_singleton, solid]
    rfl
  have parts : Path.parts overlongBody = [overlongBody] := by
    rw [Path.parts, List.splitOn_eq_singleton noPoint, List.map_singleton, solid]
  intro fit
  rw [Path.IndexesFit, path, String.toList_ofList, parts, List.forall_mem_singleton] at fit
  have short := fit overlong ⟨['a'], [overlong], rfl, List.cons_ne_nil _ _, by decide,
    List.forall_mem_singleton.mpr isNumeral_overlong, List.mem_singleton_self overlong⟩
  rw [overlong, List.length_append, List.length_replicate] at short
  exact absurd short (Nat.not_succ_le_self digitLimit)

end Overlong

/-- A reference with an index that has a digit too many is no reference to rename to. -/
theorem not_renames_overlong :
    ¬ ['{', '{', '{'] <:+: "{{a}}".toList ∧ Token.IsBare "a".toList ∧
      Token.IsBare (String.ofList overlongBody).toList ∧
      ¬ Renames "{{a}}" (braced "a") (braced (String.ofList overlongBody)) := by
  have plain : ¬ ['{', '{', '{'] <:+: "{{a}}".toList := by decide
  have bareOld : Token.IsBare "a".toList := ⟨⟨by decide, by decide⟩, by decide⟩
  have bareNew : Token.IsBare (String.ofList overlongBody).toList := by
    rw [String.toList_ofList]
    exact isBare_overlongBody
  refine ⟨plain, bareOld, bareNew, ?_⟩
  rintro ⟨found, again, read, readAgain, -⟩
  have fits := ((holesFit_replace_iff plain bareOld bareNew).mp
    ⟨references_succeeds_iff.mp ⟨found, read⟩, references_succeeds_iff.mp ⟨again, readAgain⟩⟩).2
  rw [@String.toList_ofList overlongBody] at fits
  exact not_indexesFit_overlongBody (fits (List.mem_singleton_self _))

end Reference
end Stencil
