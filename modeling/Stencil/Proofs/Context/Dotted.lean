import Stencil.Proofs.Context.Walk
import Stencil.Proofs.Resolve.Foresight
import Stencil.Proofs.Resolve.Lookup
import Stencil.Proofs.Template.Grammar

/-!
# Indexes and names of digits

A list is counted into by an index in brackets or by a name of digits behind a point. The two are
read and followed in different ways: an index counts into lists and tuples only, a name of digits
into any sequence, and it is a key of a map too. `Path.dotted` writes the one way for the other
(`Path.parse_dotted`). The main statement is `Context.resolve_dotted`: where a path leads to a
value, it leads to the same value in the other way, and the two lead alike wherever the indexes of
the path meet nothing but lists and tuples.
-/

namespace Stencil

open Outcome

/-- Names that lead the way of a segment: its own name and, for each index, digits that denote
it. -/
def Segment.IsLedBy (segment : Segment) (names : List String) : Prop :=
  ∃ groups : List (List Char),
    (∀ group ∈ groups, Path.IsNumeral group ∧ group.length ≤ digitLimit) ∧
    segment.indices = groups.map Text.decimalNumber ∧
    names = segment.name :: groups.map String.ofList

namespace Path

/-- A text with a point for every opening bracket and without its closing brackets. In a valid path
brackets stand around indexes only. -/
def unbracketed (text : List Char) : List Char :=
  text.flatMap fun c => if c = '[' then ['.'] else if c = ']' then [] else [c]

/-- A path with every index written as a name of digits behind a point. -/
def dotted (path : String) : String :=
  String.ofList (unbracketed path.toList)

section Text

variable {text : List Char}

theorem unbracketed_append (front back : List Char) :
    unbracketed (front ++ back) = unbracketed front ++ unbracketed back :=
  List.flatMap_append

/-- A text without brackets stays as it is. -/
theorem unbracketed_of_not_mem (noOpening : '[' ∉ text) (noClosing : ']' ∉ text) :
    unbracketed text = text := by
  induction text with
  | nil => rfl
  | cons c rest ih =>
    rw [List.mem_cons, not_or] at noOpening noClosing
    rw [unbracketed, List.flatMap_cons, if_neg (Ne.symm noOpening.1), if_neg (Ne.symm noClosing.1)]
    exact congrArg (c :: ·) (ih noOpening.2 noClosing.2)

/-- The pieces between the points are changed one by one. -/
theorem splitOn_unbracketed (text : List Char) :
    (unbracketed text).splitOn '.' =
      (text.splitOn '.').flatMap fun piece => (unbracketed piece).splitOn '.' := by
  induction size : text.length using Nat.strongRecOn generalizing text with
  | ind length ih =>
    by_cases cut : '.' ∈ text
    · obtain ⟨piece, rest, rfl, fresh⟩ := List.eq_append_cons_of_mem cut
      have shorter : rest.length < length := by
        rw [← size, List.length_append, List.length_cons]
        omega
      have split : unbracketed (piece ++ '.' :: rest) =
          unbracketed piece ++ '.' :: unbracketed rest := unbracketed_append _ _
      have apart : (unbracketed piece ++ '.' :: unbracketed rest).splitOn '.' =
          (unbracketed piece).splitOn '.' ++ (unbracketed rest).splitOn '.' :=
        List.splitOnP_append_cons _ _ (by simp)
      rw [split, apart, List.splitOn_append_cons_self_of_not_mem fresh, List.flatMap_cons,
        ih rest.length shorter rest rfl]
    · rw [List.splitOn_eq_singleton cut, List.flatMap_singleton]

/-- A blank text has no solid character. -/
theorem not_mem_of_isBlankText {c : Char} (blank : Text.isBlankText text = true)
    (solid : Text.isBlank c = false) : c ∉ text := by
  intro member
  rw [List.all_eq_true.mp blank c member] at solid
  cases solid

/-- Blanks around a piece do not matter to the parts that it becomes. -/
theorem parts_unbracketed_trim (piece : List Char) :
    parts (unbracketed (Text.trim piece)) = parts (unbracketed piece) := by
  obtain ⟨front, back, whole, blankFront, blankBack⟩ := Text.exists_blanks_trim piece
  have same {blanks : List Char} (blank : Text.isBlankText blanks = true) :
      unbracketed blanks = blanks :=
    unbracketed_of_not_mem (not_mem_of_isBlankText blank (by decide))
      (not_mem_of_isBlankText blank (by decide))
  have written : unbracketed piece = front ++ unbracketed (Text.trim piece) ++ back := by
    conv_lhs => rw [whole]
    rw [unbracketed_append, unbracketed_append, same blankFront, same blankBack]
  rw [written, parts, parts,
    Text.map_trim_splitOn_append_right (not_mem_of_isBlankText blankBack (by decide)) blankBack,
    Text.map_trim_splitOn_append_left (not_mem_of_isBlankText blankFront (by decide)) blankFront]

/-- The parts of a path are changed one by one. -/
theorem parts_unbracketed (text : List Char) :
    parts (unbracketed text) = (parts text).flatMap fun part => parts (unbracketed part) := by
  rw [parts, splitOn_unbracketed, List.map_flatMap, parts, List.flatMap_map]
  exact List.flatMap_congr fun piece _ => (parts_unbracketed_trim piece).symm

end Text

section Part

variable {digits name : List Char} {groups : List (List Char)}

/-- A numeral has only decimal digits. -/
theorem not_mem_of_isNumeral {c : Char} (numeral : IsNumeral digits)
    (other : Text.isDecimal c = false) : c ∉ digits := by
  intro member
  rw [numeral.2 c member] at other
  cases other

/-- A numeral has nothing to trim. -/
theorem trim_of_isNumeral (numeral : IsNumeral digits) : Text.trim digits = digits :=
  Text.trim_of_forall_mem fun c member => Text.isBlank_of_isDecimal (numeral.2 c member)

/-- Indexes become names of digits, each with a point in front. -/
theorem unbracketed_bracketed (numerals : ∀ group ∈ groups, IsNumeral group) :
    unbracketed (bracketed groups) = groups.flatMap ('.' :: ·) := by
  induction groups with
  | nil => rfl
  | cons digits rest ih =>
    rw [List.forall_mem_cons] at numerals
    have within : unbracketed digits = digits :=
      unbracketed_of_not_mem (not_mem_of_isNumeral numerals.1 not_isDecimal_opening)
        (not_mem_of_isNumeral numerals.1 not_isDecimal_closing)
    have split : unbracketed ('[' :: (digits ++ ']' :: bracketed rest)) =
        '.' :: (unbracketed digits ++ unbracketed (bracketed rest)) :=
      congrArg ('.' :: ·) (unbracketed_append _ _)
    rw [bracketed_cons, split, within, ih numerals.2, List.flatMap_cons, List.cons_append]

/-- Groups with a point before each are split at these points. -/
theorem splitOn_flatMap_point {front : List Char} (fresh : '.' ∉ front)
    (noPoint : ∀ group ∈ groups, '.' ∉ group) :
    (front ++ groups.flatMap ('.' :: ·)).splitOn '.' = front :: groups := by
  induction groups generalizing front with
  | nil => rw [List.flatMap_nil, List.append_nil, List.splitOn_eq_singleton fresh]
  | cons digits rest ih =>
    rw [List.forall_mem_cons] at noPoint
    rw [List.flatMap_cons, List.cons_append, List.splitOn_append_cons_self_of_not_mem fresh,
      ih noPoint.1 noPoint.2]

/-- A valid part becomes its name and one name of digits for each of its indexes. -/
theorem parts_unbracketed_part (identifier : isIdentifier name = true)
    (numerals : ∀ group ∈ groups, IsNumeral group) :
    parts (unbracketed (name ++ bracketed groups)) = name :: groups := by
  have free {c : Char} (foreign : continuesIdentifier c = false) : c ∉ name :=
    not_mem_of_isIdentifier identifier foreign
  have trimmedName : Text.trim name = name :=
    trim_of_isValidPart (isValidPart_of_isIdentifier identifier)
  have trimmedGroups : groups.map Text.trim = groups :=
    (List.map_congr_left fun group member => trim_of_isNumeral (numerals group member)).trans
      (List.map_id _)
  rw [unbracketed_append, unbracketed_of_not_mem (free (by decide)) (free (by decide)),
    unbracketed_bracketed numerals, parts, splitOn_flatMap_point (free (by decide))
      fun group member => not_mem_of_isNumeral (numerals group member) (by decide),
    List.map_cons, trimmedName, trimmedGroups]

end Part

/-- Segments that parts of a valid path spell are led by the names that the parts become. -/
theorem exists_isLedBy {segments : Path} {all : List (List Char)}
    (spelled : List.Forall₂ Segment.IsSpelledBy segments all)
    (writable : ∀ segment ∈ segments, segment.IsWritable)
    (short : ∀ part ∈ all, ∀ digits, IsIndexOf digits part → digits.length ≤ digitLimit) :
    ∃ names, List.Forall₂ Segment.IsLedBy segments names ∧
      (all.flatMap fun part => parts (unbracketed part)) = names.flatten.map String.toList := by
  induction spelled with
  | nil => exact ⟨[], .nil, rfl⟩
  | @cons segment part segments all here _ ih =>
    rw [List.forall_mem_cons] at writable short
    obtain ⟨names, led, become⟩ := ih writable.2 short.2
    obtain ⟨groups, rfl, numerals, denoted⟩ := here
    have identifier := writable.1.identifier
    have few : ∀ group ∈ groups, group.length ≤ digitLimit := fun group member =>
      short.1 group ⟨segment.name.toList, groups, rfl, ne_nil_of_isIdentifier identifier,
        not_mem_of_isIdentifier identifier (by decide), numerals, member⟩
    refine ⟨(segment.name :: groups.map String.ofList) :: names, .cons ⟨groups, fun group member =>
      ⟨numerals group member, few group member⟩, denoted, rfl⟩ led, ?_⟩
    rw [List.flatMap_cons, parts_unbracketed_part identifier numerals, become, List.flatten_cons,
      List.map_append, List.map_cons, List.map_map]
    congr 2
    exact ((List.map_congr_left fun group _ => String.toList_ofList).trans (List.map_id _)).symm

/-- What is needed of a name to be read as itself behind a point and to be followed from every
value. -/
structure IsStep (name : String) : Prop where
  filled : name ≠ ""
  noBracket : ']' ∉ name.toList
  sound : Value.isSoundName name = true

/-- An identifier is a step of a path. -/
theorem isStep_of_isIdentifier {name : String} (identifier : isIdentifier name.toList = true) :
    IsStep name := by
  obtain ⟨c, first, begins⟩ :=
    exists_beginsIdentifier_of_isValidPart (isValidPart_of_isIdentifier identifier)
  refine ⟨?_, not_mem_of_isIdentifier identifier (by decide),
    @Segment.isSound_of_beginsIdentifier ⟨name, []⟩ c first begins⟩
  rintro rfl
  cases identifier

/-- A numeral that is short enough to be converted is a step of a path. -/
theorem isStep_of_isNumeral {digits : List Char} (numeral : IsNumeral digits)
    (short : digits.length ≤ digitLimit) : IsStep (String.ofList digits) := by
  refine ⟨fun none => numeral.1 (String.ofList_eq_empty_iff.mp none), ?_, ?_⟩
  · rw [String.toList_ofList]
    exact not_mem_of_isNumeral numeral not_isDecimal_closing
  · rw [Value.isSoundName, String.toList_ofList, List.all_eq_true.mpr numeral.2, Bool.true_and,
      decide_eq_true short, Bool.or_true]

/-- The names that lead along writable segments are steps of a path. -/
theorem forall_isStep {segments : Path} {names : List (List String)}
    (led : List.Forall₂ Segment.IsLedBy segments names)
    (writable : ∀ segment ∈ segments, segment.IsWritable) :
    ∀ name ∈ names.flatten, IsStep name := by
  induction led with
  | nil => exact fun _ => nofun
  | cons here _ ih =>
    rw [List.forall_mem_cons] at writable
    obtain ⟨groups, numerals, -, rfl⟩ := here
    rw [List.flatten_cons, List.forall_mem_append, List.forall_mem_cons, List.forall_mem_map]
    exact ⟨⟨isStep_of_isIdentifier writable.1.identifier, fun group member =>
      isStep_of_isNumeral (numerals group member).1 (numerals group member).2⟩, ih writable.2⟩

variable {path : String}

/-- **A valid path written with points** is read as the names that lead the way of its
segments. -/
theorem parse_dotted (valid : isValid path = true) (fit : IndexesFit path) :
    ∃ segments names, parse path = .ok segments ∧ segments ≠ [] ∧
      (∀ segment ∈ segments, segment.IsWritable) ∧ List.Forall₂ Segment.IsLedBy segments names ∧
      (∀ name ∈ names.flatten, IsStep name) ∧
      parse (dotted path) = .ok (ofNames names.flatten) := by
  obtain ⟨segments, read, writable, spelled⟩ := exists_segments_of_isValid valid fit
  obtain ⟨names, led, become⟩ := exists_isLedBy spelled writable fit
  have steps := forall_isStep led writable
  have some : segments ≠ [] := by
    rintro rfl
    exact List.splitOn_ne_nil _ _ (List.map_eq_nil_iff.mp (List.forall₂_nil_left_iff.mp spelled))
  have cut : parts (dotted path).toList = names.flatten.map String.toList := by
    rw [dotted, String.toList_ofList, parts_unbracketed, become]
  have solid : Text.isBlankText (dotted path).toList = false := by
    by_contra blank
    rw [Bool.not_eq_false] at blank
    obtain ⟨name, only, void⟩ := List.map_eq_singleton_iff.mp
      (cut.symm.trans (parts_of_isBlankText blank))
    have step := steps name (only ▸ List.mem_singleton_self name)
    exact step.filled (String.toList_eq_nil_iff.mp void)
  refine ⟨segments, names, read, some, writable, led, steps, ?_⟩
  rw [parse, solid, if_neg Bool.false_ne_true, cut]
  refine mapM_map_eq_ok fun name member => ?_
  rw [segmentOf_of_nameOf (nameOf_of_not_mem (steps name member).noBracket), String.ofList_toList]

end Path

namespace Value

/-- Whether a value is counted into by indexes. -/
def isSequence : Value → Bool
  | .list _ | .tuple _ => true
  | _ => false

/-- The indexes of a path, followed from a value, meet a value that is to be counted into. -/
inductive Indexes : Value → Path → Value → Prop
  | here {value child : Value} {segment : Segment} {rest : Path} {before after : List Nat}
    {index : Nat} (named : value.step ⟨segment.name, []⟩ = .ok child)
    (split : segment.indices = before ++ index :: after) :
    Indexes value (segment :: rest) (before.foldl item child)
  | behind {value next met : Value} {segment : Segment} {rest : Path}
    (leads : value.step segment = .ok next) (meets : Indexes next rest met) :
    Indexes value (segment :: rest) met

/-- Whether the indexes of a path meet nothing but lists and tuples, as far as it leads from a
value. -/
def MeetsSequences (value : Value) (path : Path) : Prop :=
  ∀ met, value.Indexes path met → met.isUndefined = false → met.isSequence = true

variable {value : Value}

/-- A value that is no sequence has no items. -/
theorem item_of_not_isSequence (single : value.isSequence = false) (index : Nat) :
    value.item index = .undefined := by
  cases value with
  | list => cases single
  | tuple => cases single
  | _ => rfl

/-- A segment is followed by its name first, then by its indexes. -/
theorem step_eq_foldl (value : Value) (segment : Segment) :
    value.step segment =
      (do return segment.indices.foldl item (← value.step ⟨segment.name, []⟩)) := by
  rw [step, step]
  split_ifs with absent
  · exact congrArg Except.ok (foldl_item_undefined segment.indices).symm
  · cases value.child segment.name <;> rfl

theorem follow_append (value : Value) (front back : Path) :
    value.follow (front ++ back) = (do (← value.follow front).follow back) := by
  induction front generalizing value with
  | nil => rfl
  | cons segment rest ih =>
    rw [List.cons_append, follow, follow]
    cases value.step segment with
    | error fault => rfl
    | ok next => exact ih next

/-- A name of digits leads where an index does, from a value that is counted into or undefined. -/
theorem step_numeral {digits : List Char} (numeral : Path.IsNumeral digits)
    (short : digits.length ≤ digitLimit)
    (counted : value.isUndefined = false → value.isSequence = true) :
    value.step ⟨String.ofList digits, []⟩ = .ok (value.item (Text.decimalNumber digits)) := by
  have named (items : List Value) : itemNamed items (String.ofList digits) =
      .ok (items.getD (Text.decimalNumber digits) .undefined) := by
    have every : digits.all Text.isDecimal = true := List.all_eq_true.mpr numeral.2
    have position : isPosition (String.ofList digits) = true := by
      rw [isPosition, String.toList_ofList, Bool.and_eq_true]
      refine ⟨by simpa using numeral.1, List.all_eq_true.mpr fun c member => ?_⟩
      rw [Text.isDigit, numeral.2 c member, Bool.true_or]
    have fits : ¬ digitLimit < (digits.takeWhile Text.isDecimal).length :=
      Nat.not_lt.mpr (Nat.le_trans (List.takeWhile_sublist _).length_le short)
    rw [itemNamed, if_pos position, positionOf, String.toList_ofList]
    simp only [if_neg fits, if_pos every]
    rfl
  cases value with
  | undefined => rfl
  | list items => exact congrArg (· >>= fun found => .ok found) (named items)
  | tuple items => exact congrArg (· >>= fun found => .ok found) (named items)
  | _ => cases counted rfl

/-- Names of digits lead where indexes do, if these meet nothing but lists and tuples. -/
theorem follow_numerals {groups : List (List Char)}
    (numerals : ∀ group ∈ groups, Path.IsNumeral group ∧ group.length ≤ digitLimit)
    (counted : ∀ before index after, groups.map Text.decimalNumber = before ++ index :: after →
      (before.foldl item value).isUndefined = false →
        (before.foldl item value).isSequence = true) :
    value.follow (Path.ofNames (groups.map String.ofList)) =
      .ok ((groups.map Text.decimalNumber).foldl item value) := by
  induction groups generalizing value with
  | nil => rfl
  | cons digits rest ih =>
    rw [List.forall_mem_cons] at numerals
    have here : value.step ⟨String.ofList digits, []⟩ =
        .ok (value.item (Text.decimalNumber digits)) :=
      step_numeral numerals.1.1 numerals.1.2 (counted [] _ _ rfl)
    have split : Path.ofNames ((digits :: rest).map String.ofList) =
        ⟨String.ofList digits, []⟩ :: Path.ofNames (rest.map String.ofList) := rfl
    rw [split, follow, here, ok_bind, ih numerals.2 fun before index after split => ?_]
    · rfl
    · exact counted (Text.decimalNumber digits :: before) index after
        (congrArg (Text.decimalNumber digits :: ·) split)

/-- **Names of digits lead where indexes do**, along a whole path, if the indexes meet nothing but
lists and tuples. -/
theorem follow_isLedBy {segments : Path} {names : List (List String)}
    (led : List.Forall₂ Segment.IsLedBy segments names) (meets : value.MeetsSequences segments) :
    value.follow (Path.ofNames names.flatten) = value.follow segments := by
  induction led generalizing value with
  | nil => rfl
  | @cons segment _ segments names here _ ih =>
    obtain ⟨groups, numerals, denoted, rfl⟩ := here
    have split : Path.ofNames ((segment.name :: groups.map String.ofList) :: names).flatten =
        ⟨segment.name, []⟩ :: (Path.ofNames (groups.map String.ofList) ++
          Path.ofNames names.flatten) := by
      rw [List.flatten_cons, Path.ofNames, List.map_append, List.map_cons]
      rfl
    rw [split, follow, follow]
    cases named : value.step ⟨segment.name, []⟩ with
    | error fault =>
      rw [step_eq_foldl, named]
      rfl
    | ok child =>
      have leads : value.step segment = .ok (segment.indices.foldl item child) := by
        rw [step_eq_foldl, named]
        rfl
      have counted := @follow_numerals child groups numerals fun before index after written =>
        meets _ (.here named (denoted.trans written))
      rw [leads, ok_bind, ok_bind, follow_append, counted, ok_bind, ← denoted]
      exact ih fun met later => meets met (.behind leads later)

/-- On the way to a value, indexes meet nothing but lists and tuples. -/
theorem meetsSequences_of_follow {segments : Path} {found : Value}
    (leads : value.follow segments = .ok found) (defined : found.isUndefined = false) :
    value.MeetsSequences segments := by
  intro met meets seen
  induction meets with
  | @here value child segment rest before after index named split =>
    by_contra single
    rw [Bool.not_eq_true] at single
    have nothing : value.step segment = .ok .undefined := by
      rw [step_eq_foldl, named, split]
      change Except.ok ((before ++ index :: after).foldl item child) = _
      rw [List.foldl_append, List.foldl_cons, item_of_not_isSequence single, foldl_item_undefined]
    rw [follow, nothing, ok_bind, follow_undefined] at leads
    cases leads
    cases defined
  | behind step _ ih =>
    rw [follow, step, ok_bind] at leads
    exact ih leads seen

end Value

namespace Context

variable {context : Context} {path : String}

/-- **Indexes in brackets and names of digits agree.** A valid path and the path with points for its
brackets are both looked up without a fault. If the path leads to a value, so does the other, to the
same; and the two lead alike if the indexes of the path meet nothing but lists and tuples on its way
through the context. -/
theorem resolve_dotted (valid : Path.isValid path = true) (fit : Path.IndexesFit path) :
    ∃ segments value other, Path.parse path = .ok segments ∧ context.resolve path = .ok value ∧
      context.resolve (Path.dotted path) = .ok other ∧
      (value.isUndefined = false → other = value) ∧
      (context.root.MeetsSequences segments → other = value) := by
  obtain ⟨segments, names, read, some, writable, led, steps, readDotted⟩ :=
    Path.parse_dotted valid fit
  have looked {path : Path} (filled : path ≠ []) :
      lookup path context.merged = context.root.follow path := by
    rw [lookup, if_neg (by simpa using filled)]
    rfl
  have filled : Path.ofNames names.flatten ≠ [] := by
    obtain ⟨segment, rest, rfl⟩ := List.exists_cons_of_ne_nil some
    obtain ⟨first, others, ⟨groups, -, -, rfl⟩, -, rfl⟩ := List.forall₂_cons_left_iff.mp led
    exact List.cons_ne_nil _ _
  have leads : context.resolve path = context.root.follow segments := by
    rw [Context.resolve, read, ok_bind, looked some]
  have leadsDotted : context.resolve (Path.dotted path) =
      context.root.follow (Path.ofNames names.flatten) := by
    rw [Context.resolve, readDotted, ok_bind, looked filled]
  obtain ⟨value, found⟩ := @Value.follow_succeeds context.root segments fun segment member =>
    (Path.isStep_of_isIdentifier (writable segment member).identifier).sound
  obtain ⟨other, foundOther⟩ := @Value.follow_succeeds context.root (Path.ofNames names.flatten)
    (List.forall_mem_map.mpr fun name member => (steps name member).sound)
  have agree (meets : context.root.MeetsSequences segments) : other = value := by
    rw [Value.follow_isLedBy led meets, found] at foundOther
    exact (Except.ok.inj foundOther).symm
  exact ⟨segments, value, other, read, leads.trans found, leadsDotted.trans foundOther,
    fun defined => agree (Value.meetsSequences_of_follow found defined), agree⟩

/-- A list in a tuple and a list in a map, the one by digits with a zero in front; under a map that
has digits for a key, an index leads nowhere. -/
theorem resolve_dotted_nested :
    let context : Context := ⟨[("ids", .map [(.text "0", .int 3)])],
      [("rows", .tuple [.list [.int 1, .map [(.text "ids", .list [.int 2, .null])]]])], []⟩
    context.resolve "rows[0][01].ids[1]" = .ok .null ∧
      context.resolve "rows.0.01.ids.1" = .ok .null ∧
      context.resolve "ids[0]" = .ok .undefined ∧ context.resolve "ids.0" = .ok (.int 3) := by
  intro context
  have read : Path.parse "rows[0][01].ids[1]" = .ok [⟨"rows", [0, 1]⟩, ⟨"ids", [1]⟩] := rfl
  have found : context.resolve "rows[0][01].ids[1]" = .ok .null := rfl
  obtain ⟨segments, value, other, -, leads, leadsDotted, same, -⟩ :=
    @resolve_dotted context "rows[0][01].ids[1]" (by decide) (Path.parse_succeeds_iff.mp ⟨_, read⟩)
  obtain rfl : value = .null := Except.ok.inj (leads.symm.trans found)
  rw [same rfl] at leadsDotted
  exact ⟨found, leadsDotted, rfl, rfl⟩

end Context
end Stencil
