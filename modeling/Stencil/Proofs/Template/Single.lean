import Stencil.Proofs.Template.Enclosed
import Stencil.Proofs.Template.Index
import Stencil.Proofs.Template.Span

/-!
# The text of a single reference

A text is a single reference if it is read as one, from its beginning to its end, with a valid path
(`Reference.IsSingle`). The check for flaws looks at the braces at the two ends and at the path in
front of the first bar (`Reference.flaw?_eq_none_iff`), not at what else stands between the braces.
So it passes every single reference, and besides these only texts whose inside braces cannot
enclose (`Reference.isSingle_iff`).
-/

namespace Stencil

open Outcome

/-- No index in the holes of a text has too many digits to be read. -/
def HolesFit (text : String) : Prop :=
  ∀ body ∈ Token.bodies (Token.tokens text.toList), Path.IndexesFit (Reference.pathIn body)

namespace Reference

/-- Whether a text is read as one reference, which spans all of it and has a valid path. -/
def IsSingle (text : String) : Prop :=
  ∃ reference, references text = .ok [reference] ∧ reference.start = 0 ∧
    reference.stop = text.length ∧ Path.isValid reference.path = true

/-- What stands between the two characters at each end of a text. -/
def inside (text : String) : List Char :=
  (text.toList.drop 2).dropLast.dropLast

variable {text : String} {body : List Char}

/-- The inside of a text that is one hole is the body of the hole. -/
theorem inside_of_holeSource (braces : text.toList = Token.holeSource body) :
    inside text = body := by
  rw [inside, braces, Token.holeSource, List.cons_append, List.cons_append, List.drop_succ_cons,
    List.drop_succ_cons, List.drop_zero, List.append_cons, List.dropLast_concat,
    List.dropLast_concat]

/-- Braces at both ends of a text enclose what stands inside. -/
theorem eq_holeSource_inside (opens : ['{', '{'] <+: text.toList)
    (closes : ['}', '}'] <:+ text.toList) : text.toList = Token.holeSource (inside text) := by
  obtain ⟨behind, begins⟩ := opens
  obtain ⟨front, ends⟩ := closes
  have whole : '{' :: '{' :: behind = front ++ ['}', '}'] := begins.trans ends.symm
  match front with
  | [] => cases whole
  | [_] => cases whole
  | first :: second :: body =>
    obtain ⟨rfl, rfl, -⟩ : first = '{' ∧ second = '{' ∧ behind = body ++ ['}', '}'] := by
      simpa [eq_comm] using whole
    have braces : text.toList = Token.holeSource body := ends.symm
    rw [inside_of_holeSource braces, braces]

/-- **A text is found without a flaw** exactly if it is a text in braces and the path in front of
its first bar is valid. -/
theorem flaw?_eq_none_iff :
    flaw? text = none ↔
      ∃ body, text.toList = Token.holeSource body ∧ Path.isValid (pathIn body) = true := by
  have path (body : List Char) : String.ofList (Text.trim
      (((Text.trim body).splitOn '|').head?.getD [])) = pathIn body := by
    rw [pathIn, piecesOf, List.head?_map]
    cases ((Text.trim body).splitOn '|').head? <;> rfl
  constructor
  · intro passes
    simp only [flaw?] at passes
    split_ifs at passes with unwrapped empty valid
    rw [Bool.not_eq_true, Bool.not_eq_false', Bool.and_eq_true, List.isPrefixOf_iff_prefix,
      List.isSuffixOf_iff_suffix] at unwrapped
    refine ⟨inside text, eq_holeSource_inside unwrapped.1 unwrapped.2, ?_⟩
    rw [← path]
    exact valid
  · rintro ⟨body, braces, valid⟩
    have opens : ['{', '{'].isPrefixOf text.toList = true := by
      rw [braces]
      rfl
    have closes : ['}', '}'].isSuffixOf text.toList = true := by
      rw [braces, List.isSuffixOf_iff_suffix]
      exact List.suffix_append ('{' :: '{' :: body) _
    have between : (text.toList.drop 2).dropLast.dropLast = body := inside_of_holeSource braces
    have filled : (Text.trim body).isEmpty = false := by
      by_contra empty
      rw [Bool.not_eq_false, List.isEmpty_iff] at empty
      rw [← path, empty] at valid
      cases valid
    simp only [flaw?, opens, closes, between, filled, path, valid]
    rfl

/-- A single reference is a hole that takes up all of its text. -/
theorem isSingle_iff_exists_body :
    IsSingle text ↔ ∃ body, text.toList = Token.holeSource body ∧ Token.Enclosable body ∧
      Path.IndexesFit (pathIn body) ∧ Path.isValid (pathIn body) = true := by
  have ofBody {body : List Char} (braces : text.toList = Token.holeSource body)
      (inner : Token.Enclosable body) (found : List Reference) : references text = .ok found ↔
        ∃ reference, ofHole 0 body = .ok reference ∧ found = [reference] := by
    rw [references, braces, Token.tokens_holeSource inner, ofTokens_hole_eq_ok]
    constructor
    · rintro ⟨reference, others, read, rest, rfl⟩
      cases rest
      exact ⟨reference, read, rfl⟩
    · rintro ⟨reference, read, rfl⟩
      exact ⟨reference, [], read, rfl, rfl⟩
  constructor
  · rintro ⟨reference, read, starts, stops, valid⟩
    have hole := isHole_of_mem_references read (List.mem_singleton_self reference)
    rw [starts, Token.isHole_zero_iff] at hole
    obtain ⟨body, found, long⟩ := hole
    obtain ⟨rest, braces⟩ := Token.eq_append_of_hole? found
    have size : text.length = body.length + 4 + rest.length := by
      rw [← String.length_toList, braces, List.length_append, Token.length_holeSource]
    obtain rfl : rest = [] := List.length_eq_zero_iff.mp (by omega)
    rw [List.append_nil] at braces
    have inner : Token.Enclosable body := by
      rw [braces] at found
      exact Token.enclosable_of_body? found
    obtain ⟨other, readHole, same⟩ := (ofBody braces inner _).mp read
    obtain rfl : reference = other := List.singleton_inj.mp same
    rw [path_eq_pathIn readHole] at valid
    refine ⟨body, braces, inner, ?_, valid⟩
    rw [← path_eq_pathIn readHole]
    exact Path.parse_succeeds_iff.mp ⟨_, parse_path readHole⟩
  · rintro ⟨body, braces, inner, fit, valid⟩
    obtain ⟨reference, readHole⟩ : Succeeds (ofHole 0 body) :=
      succeeds_map_iff.mpr (Path.parse_succeeds_iff.mpr fit)
    obtain ⟨-, starts, stops⟩ := span_of_ofHole readHole
    refine ⟨reference, (ofBody braces inner _).mpr ⟨reference, readHole, rfl⟩, starts, ?_, ?_⟩
    · rw [stops, ← String.length_toList, braces, Token.length_holeSource, Nat.zero_add]
    · rw [path_eq_pathIn readHole]
      exact valid

/-- **The check passes every single reference,** and a text that passes is a single reference
exactly if braces can enclose what stands inside. -/
theorem isSingle_iff (fit : HolesFit text) :
    IsSingle text ↔ flaw? text = none ∧ Token.Enclosable (inside text) := by
  rw [isSingle_iff_exists_body, flaw?_eq_none_iff]
  constructor
  · rintro ⟨body, braces, inner, -, valid⟩
    refine ⟨⟨body, braces, valid⟩, ?_⟩
    rwa [inside_of_holeSource braces]
  · rintro ⟨⟨body, braces, valid⟩, inner⟩
    rw [inside_of_holeSource braces] at inner
    refine ⟨body, braces, inner, fit body ?_, valid⟩
    rw [braces, Token.tokens_holeSource inner]
    exact List.mem_singleton_self body

/-- Blanks, an index, an empty step and a single brace in an argument are no flaw. -/
theorem isSingle_iff_brace :
    HolesFit (braced " a[0].b | default:\x7b | ") ∧
      IsSingle (braced " a[0].b | default:\x7b | ") := by
  have fit : HolesFit (braced " a[0].b | default:\x7b | ") :=
    List.forall_mem_singleton.mpr (Path.parse_succeeds_iff.mp ⟨[⟨"a", [0]⟩, ⟨"b", []⟩], rfl⟩)
  exact ⟨fit, (isSingle_iff fit).mpr ⟨rfl, by decide, by decide⟩⟩

/-- Of two references the first has a bar, and the path in front of it is valid. -/
theorem isSingle_two :
    HolesFit "{{a|trim}} {{b}}" ∧ flaw? "{{a|trim}} {{b}}" = none ∧
      ¬ IsSingle "{{a|trim}} {{b}}" := by
  have fit : HolesFit "{{a|trim}} {{b}}" :=
    List.forall_mem_cons.mpr ⟨Path.parse_succeeds_iff.mp ⟨[⟨"a", []⟩], rfl⟩,
      List.forall_mem_singleton.mpr (Path.parse_succeeds_iff.mp ⟨[⟨"b", []⟩], rfl⟩)⟩
  refine ⟨fit, rfl, ?_⟩
  rintro ⟨reference, read, -⟩
  cases read

end Reference
end Stencil
