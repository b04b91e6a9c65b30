import Stencil.Proofs.Template.Call

/-!
# Calls with quoted arguments

An argument in quotes may hold any character but its quote, colons, blanks and line breaks among
them (`Step.QuotedArg`). A call whose arguments are all in quotes is read as it was meant
(`Step.QuotedCall.parse_text`), also from the reference that it is built into, if braces and bars do
not cut it there. The main statement is `Reference.quotedCalls_survive`.
-/

namespace Stencil

open Text

/-- Pieces with a separator between them are the first piece and the others, each behind a
separator. -/
theorem Text.intercalate_cons (separator : Char) (first : List Char) (rest : List (List Char)) :
    [separator].intercalate (first :: rest) = first ++ rest.flatMap (separator :: ·) := by
  induction rest generalizing first with
  | nil => simp
  | cons next others ih =>
    rw [List.intercalate_cons_cons, ih, List.flatMap_cons, List.append_assoc, List.singleton_append,
      List.cons_append]

namespace Step

/-- An argument in quotes, which does not hold its quote. -/
structure QuotedArg where
  quote : Char
  body : String
  opens : isQuote quote = true
  within : quote ∉ body.toList

/-- A call of an identifier whose arguments are all in quotes. -/
structure QuotedCall where
  name : String
  args : List QuotedArg
  identifier : Path.isIdentifier name.toList = true

namespace QuotedArg

variable (arg : QuotedArg)

/-- An argument as it is written. -/
def chars : List Char :=
  arg.quote :: (arg.body.toList ++ [arg.quote])

/-- Whether a hole can hold an argument: it has no bar, no closing brace and no two opening braces
in a row. -/
structure FitsHole : Prop where
  noBar : '|' ∉ arg.body.toList
  enclosable : Token.Enclosable arg.body.toList

/-- A quoted argument has nothing to trim. -/
theorem trim_chars : trim arg.chars = arg.chars := by
  have solid : isBlank arg.quote = false := isBlank_of_isQuote arg.opens
  rw [trim_eq_self_iff]
  constructor
  · intro c first
    rw [← Option.some.inj first]
    exact solid
  · intro c last
    rw [chars, ← List.cons_append, List.getLast?_concat] at last
    rw [← Option.some.inj last]
    exact solid

/-- The quotes keep an argument whole. -/
theorem isWhole_chars : IsWhole arg.chars :=
  @IsWhole.quoted [] arg.quote arg.body.toList [] rfl arg.opens arg.within List.not_mem_nil

/-- A quoted argument is read as its body. -/
theorem unquote_chars : unquote arg.chars = arg.body.toList :=
  unquote_of_isWrapped arg.opens arg.trim_chars

/-- A quoted argument has no character that is neither a quote nor in its body. -/
theorem not_mem_chars {c : Char} (other : isQuote c = false) (without : c ∉ arg.body.toList) :
    c ∉ arg.chars := by
  have apart : c ≠ arg.quote := by
    rintro rfl
    rw [arg.opens] at other
    cases other
  rw [chars, List.mem_cons, List.mem_append, List.mem_singleton]
  exact fun member => member.elim apart fun inside => inside.elim without apart

/-- The quotes around an argument do not matter to the braces. -/
theorem enclosable_chars {arg : QuotedArg} (fits : arg.FitsHole) : Token.Enclosable arg.chars := by
  have noClosing : arg.quote ≠ '}' := fun same => by
    have opens := arg.opens
    rw [same] at opens
    cases opens
  have noOpening : arg.quote ≠ '{' := fun same => by
    have opens := arg.opens
    rw [same] at opens
    cases opens
  have whole := (Token.enclosable_append_cons_iff noClosing noOpening).mpr
    ⟨fits.enclosable, Token.enclosable_nil⟩
  exact (@Token.enclosable_append_cons_iff _ noClosing noOpening [] _).mpr
    ⟨Token.enclosable_nil, whole⟩

end QuotedArg

/-- Whole arguments are found again. -/
theorem areApart_of_forall_isWhole {args : List (List Char)}
    (whole : ∀ arg ∈ args, IsWhole arg) : AreApart args := by
  induction args with
  | nil => trivial
  | cons arg rest ih =>
    rw [List.forall_mem_cons] at whole
    cases rest with
    | nil => exact .inl whole.1
    | cons next others => exact ⟨whole.1, ih whole.2⟩

namespace QuotedCall

variable (call : QuotedCall)

/-- A call as it is written: its name, and each argument behind a colon. -/
def text : String :=
  String.ofList (call.name.toList ++ call.args.flatMap fun arg => ':' :: arg.chars)

/-- The name of a call and its arguments as they are written. -/
def parts : List (List Char) :=
  call.name.toList :: call.args.map QuotedArg.chars

/-- A call is written as its parts with colons between. -/
theorem toList_text : call.text.toList = [':'].intercalate call.parts := by
  rw [text, String.toList_ofList, parts, intercalate_cons, List.flatMap_map]

variable {call}

/-- What holds of the name and of every argument holds of every part. -/
theorem forall_mem_parts {holds : List Char → Prop} (named : holds call.name.toList)
    (given : ∀ arg ∈ call.args, holds arg.chars) : ∀ part ∈ call.parts, holds part :=
  List.forall_mem_cons.mpr ⟨named, List.forall_mem_map.mpr given⟩

variable (call)

/-- A written call has nothing to trim. -/
theorem trim_text : trim call.text.toList = call.text.toList := by
  rw [toList_text]
  exact trim_intercalate (by decide)
    (forall_mem_parts (trim_of_isIdentifier call.identifier) fun arg _ => arg.trim_chars)

/-- The pieces of a written call are its parts. -/
theorem pieces_text : pieces [] none call.text.toList = call.parts := by
  rw [toList_text]
  exact (pieces_intercalate_iff (List.cons_ne_nil _ _)).mpr (areApart_of_forall_isWhole
    (forall_mem_parts (isWhole_of_isIdentifier call.identifier) fun arg _ => arg.isWhole_chars))

/-- A call whose arguments are in quotes is read as it was meant. -/
theorem parse_text : (parse call.text).name = call.name ∧
    (parse call.text).args = call.args.map QuotedArg.body := by
  rw [parse, call.trim_text, call.pieces_text, parts]
  constructor
  · dsimp only
    rw [List.head?_cons, Option.getD_some, trim_of_isIdentifier call.identifier,
      String.ofList_toList]
  · dsimp only
    rw [List.tail_cons, List.map_map]
    refine List.map_congr_left fun arg _ => ?_
    rw [Function.comp_apply, arg.unquote_chars, String.ofList_toList]

theorem text_ne_nil : trim call.text.toList ≠ [] := by
  rw [trim_text, text, String.toList_ofList]
  exact fun void =>
    Path.ne_nil_of_isIdentifier call.identifier (List.append_eq_nil_iff.mp void).1

variable {call}

/-- A call whose arguments fit into a hole has no bar. -/
theorem noBar_text (fits : ∀ arg ∈ call.args, arg.FitsHole) : '|' ∉ call.text.toList := by
  rw [toList_text]
  intro bar
  obtain ⟨part, among, inside⟩ := exists_mem_of_mem_intercalate bar (by decide)
  revert inside
  exact @forall_mem_parts call ('|' ∉ ·) (Path.not_mem_of_isIdentifier call.identifier (by decide))
    (fun arg member => arg.not_mem_chars (by decide) (fits arg member).noBar) part among

/-- A call whose arguments fit into a hole fits into braces. -/
theorem enclosable_text (fits : ∀ arg ∈ call.args, arg.FitsHole) :
    Token.Enclosable call.text.toList := by
  have foreign {c : Char} (other : Path.continuesIdentifier c = false) : c ∉ call.name.toList :=
    Path.not_mem_of_isIdentifier call.identifier other
  rw [toList_text]
  refine Token.enclosable_intercalate (by decide) (by decide)
    (forall_mem_parts ⟨foreign (by decide), fun opening => ?_⟩ fun arg member =>
      QuotedArg.enclosable_chars (fits arg member))
  exact foreign (by decide) (opening.subset List.mem_cons_self)

end QuotedCall
end Step

namespace Reference

/-- **Quotes keep arguments.** A call whose arguments are all in quotes is read with its name and
these arguments, whatever they hold. If holes can hold the arguments, such calls are read alike from
the reference that they are built into behind a valid path, and nothing else is read with them. -/
theorem quotedCalls_survive :
    (∀ call : Step.QuotedCall, (Step.parse call.text).name = call.name ∧
      (Step.parse call.text).args = call.args.map Step.QuotedArg.body) ∧
    ∀ (path : String) (calls : List Step.QuotedCall),
      trim path.toList = path.toList → Path.isValid path = true → Path.IndexesFit path →
      (∀ call ∈ calls, ∀ arg ∈ call.args, arg.FitsHole) →
      ∃ reference,
        references (build path (calls.map Step.QuotedCall.text)) = .ok [reference] ∧
        reference.path = path ∧
        (reference.steps.map fun step => (step.name, step.args)) =
          calls.map fun call => (call.name, call.args.map Step.QuotedArg.body) := by
  refine ⟨fun call => call.parse_text, fun path calls trimmed valid fit fits => ?_⟩
  have read := references_build_of_noBar (Path.isPiece_of_isValid trimmed valid)
    (List.forall_mem_map.mpr fun call member => Step.QuotedCall.noBar_text (fits call member))
    (List.forall_mem_map.mpr fun call member => Step.QuotedCall.enclosable_text (fits call member))
    (List.forall_mem_map.mpr fun call _ => call.text_ne_nil)
  obtain ⟨segments, parsed⟩ := Path.parse_succeeds_iff.mpr fit
  rw [parsed] at read
  refine ⟨_, read, rfl, ?_⟩
  rw [List.map_map, List.map_map]
  refine List.map_congr_left fun call _ => ?_
  obtain ⟨name, args⟩ := call.parse_text
  rw [Function.comp_apply, Function.comp_apply, name, args]

/-- Colons, blanks, a line break and the other quote in quotes. -/
theorem quotedCalls_survive_colons :
    trim "rows[0].id".toList = "rows[0].id".toList ∧ Path.isValid "rows[0].id" = true ∧
      Path.IndexesFit "rows[0].id" ∧
      ∃ reference, references
          "\x7b\x7brows[0].id|default:\"a: 'b'\n\":' say \"c\"'|trim\x7d\x7d" = .ok [reference] ∧
        reference.path = "rows[0].id" ∧
        (reference.steps.map fun step => (step.name, step.args)) =
          [("default", ["a: 'b'\n", " say \"c\""]), ("trim", [])] := by
  let first : Step.QuotedArg := ⟨'"', "a: 'b'\n", rfl, by decide⟩
  let second : Step.QuotedArg := ⟨'\'', " say \"c\"", rfl, by decide⟩
  let calls : List Step.QuotedCall := [⟨"default", [first, second], by decide⟩,
    ⟨"trim", [], by decide⟩]
  have fits : ∀ call ∈ calls, ∀ arg ∈ call.args, arg.FitsHole := by
    refine List.forall_mem_cons.mpr ⟨?_, List.forall_mem_singleton.mpr fun _ => nofun⟩
    refine List.forall_mem_cons.mpr ⟨?_, List.forall_mem_singleton.mpr ?_⟩
    · exact ⟨by decide, by decide, by decide⟩
    · exact ⟨by decide, by decide, by decide⟩
  have trimmed : trim "rows[0].id".toList = "rows[0].id".toList := by decide
  have valid : Path.isValid "rows[0].id" = true := by decide
  have fit : Path.IndexesFit "rows[0].id" := Path.parse_succeeds_iff.mp ⟨_, rfl⟩
  have written : build "rows[0].id" (calls.map Step.QuotedCall.text) =
      "\x7b\x7brows[0].id|default:\"a: 'b'\n\":' say \"c\"'|trim\x7d\x7d" := by decide +kernel
  have survive := quotedCalls_survive.2 "rows[0].id" calls trimmed valid fit fits
  rw [written] at survive
  exact ⟨trimmed, valid, fit, survive⟩

end Reference
end Stencil
