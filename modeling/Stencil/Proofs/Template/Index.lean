import Mathlib.Data.List.Basic
import Mathlib.Data.List.Infix
import Mathlib.Tactic.SplitIfs
import Stencil.Proofs.Outcome
import Stencil.Template.Path

/-!
# Indexes of a path

Indexes stand in brackets, one behind the other, at the end of a part of a path and behind a name.
`IsIndexOf` says so without a search; the search for the shortest name finds all of them
(`exists_splitIndexes?`). The main statement is `parse_succeeds_iff`: a path is read unless one of
its indexes has too many digits.
-/

namespace Stencil.Path

open Outcome

/-- Indexes as they are written, one behind the other. -/
def bracketed (groups : List (List Char)) : List Char :=
  groups.flatMap fun digits => '[' :: digits ++ [']']

/-- Digits that can stand in brackets: at least one, and each of some script. -/
def IsNumeral (digits : List Char) : Prop :=
  digits ≠ [] ∧ ∀ c ∈ digits, Text.isDecimal c = true

/-- Digits are an index of a part of a path: they stand in brackets behind a name, with nothing but
other indexes before and behind them. -/
def IsIndexOf (digits part : List Char) : Prop :=
  ∃ name groups, part = name ++ bracketed groups ∧ name ≠ [] ∧ '\n' ∉ name ∧
    (∀ group ∈ groups, IsNumeral group) ∧ digits ∈ groups

theorem bracketed_cons (digits : List Char) (groups : List (List Char)) :
    bracketed (digits :: groups) = '[' :: (digits ++ ']' :: bracketed groups) := by
  simp [bracketed]

/-- A bracket is no digit. -/
theorem not_isDecimal_opening : Text.isDecimal '[' = false := by decide

/-- A closing bracket is no digit. -/
theorem not_isDecimal_closing : Text.isDecimal ']' = false := by decide

/-- The digits up to a bracket are one group. -/
theorem indexGroups?_within {read digits rest : List Char}
    (decimal : ∀ c ∈ digits, Text.isDecimal c = true) (some : read.reverse ++ digits ≠ []) :
    indexGroups? (.some read) (digits ++ ']' :: rest) =
      (indexGroups? none rest).map ((read.reverse ++ digits) :: ·) := by
  induction digits generalizing read with
  | nil =>
    rw [List.append_nil] at some ⊢
    have filled : read.isEmpty = false := by simpa using some
    simp [indexGroups?, filled]
  | cons c others ih =>
    rw [List.forall_mem_cons] at decimal
    have open' : c ≠ ']' := by
      rintro rfl
      rw [not_isDecimal_closing] at decimal
      exact Bool.noConfusion decimal.1
    rw [List.cons_append, indexGroups?, if_neg open', if_pos decimal.1,
      ih decimal.2 (by simp)]
    simp

/-- Indexes are read back from the way they are written. -/
theorem indexGroups?_bracketed {groups : List (List Char)}
    (numerals : ∀ group ∈ groups, IsNumeral group) :
    indexGroups? none (bracketed groups) = some groups := by
  induction groups with
  | nil => rfl
  | cons digits rest ih =>
    rw [List.forall_mem_cons] at numerals
    rw [bracketed_cons, indexGroups?, if_pos rfl,
      indexGroups?_within numerals.1.2 (by simpa using numerals.1.1), ih numerals.2]
    rfl

/-- What is read as indexes is written as indexes, with what is still open in front. -/
theorem bracketed_of_indexGroups? {inside : Option (List Char)} {text : List Char}
    {groups : List (List Char)} (found : indexGroups? inside text = some groups)
    (decimal : ∀ read ∈ inside, ∀ c ∈ read, Text.isDecimal c = true) :
    inside.elim [] (fun read => '[' :: read.reverse) ++ text = bracketed groups ∧
      ∀ group ∈ groups, IsNumeral group := by
  induction text generalizing inside groups with
  | nil =>
    cases inside with
    | none =>
      cases found
      exact ⟨rfl, by simp⟩
    | some read => cases found
  | cons c rest ih =>
    cases inside with
    | none =>
      rw [indexGroups?] at found
      split_ifs at found with opens
      have behind := ih found (by simp)
      rwa [← opens] at behind
    | some read =>
      have readDecimal := decimal read rfl
      rw [indexGroups?] at found
      split_ifs at found with closes blank digit
      · obtain ⟨later, laterFound, rfl⟩ := Option.map_eq_some_iff.mp found
        obtain ⟨written, numerals⟩ := ih laterFound (by simp)
        refine ⟨?_, List.forall_mem_cons.mpr ⟨⟨?_, ?_⟩, numerals⟩⟩
        · rw [bracketed_cons, ← written, closes]
          simp
        · simpa using blank
        · simpa using readDecimal
      · have behind := ih found (by simpa using ⟨digit, readDecimal⟩)
        simpa using behind

/-- Indexes at the end of indexes are the last of them. -/
theorem suffix_of_bracketed_append {groups longer : List (List Char)} {front : List Char}
    (written : bracketed longer = front ++ bracketed groups)
    (numerals : ∀ group ∈ groups, IsNumeral group)
    (others : ∀ group ∈ longer, IsNumeral group) : groups <:+ longer := by
  induction longer generalizing front with
  | nil =>
    obtain ⟨-, none⟩ := List.append_eq_nil_iff.mp written.symm
    cases groups with
    | nil => exact List.suffix_rfl
    | cons digits rest =>
      rw [bracketed_cons] at none
      cases none
  | cons digits later ih =>
    cases front with
    | nil =>
      have same := indexGroups?_bracketed others
      rw [written, List.nil_append, indexGroups?_bracketed numerals] at same
      rw [Option.some.inj same]
    | cons c front =>
      rw [List.forall_mem_cons] at others
      cases groups with
      | nil => exact List.nil_suffix
      | cons first rest =>
        have opens : bracketed (first :: rest) = '[' :: (first ++ ']' :: bracketed rest) :=
          bracketed_cons first rest
        rw [bracketed_cons, List.cons_append, List.cons.injEq] at written
        obtain ⟨ahead, split, behind⟩ | ⟨ahead, split, behind⟩ :=
          List.append_eq_append_iff.mp written.2
        · cases ahead with
          | nil =>
            rw [List.nil_append, opens, List.cons.injEq] at behind
            exact absurd behind.1 (by decide)
          | cons d ahead =>
            rw [List.cons_append, List.cons.injEq] at behind
            exact (ih behind.2 others.2).trans (List.suffix_cons _ _)
        · -- an opening bracket would stand among the digits
          cases ahead with
          | nil =>
            rw [List.nil_append, opens, List.cons.injEq] at behind
            exact absurd behind.1 (by decide)
          | cons d ahead =>
            rw [List.cons_append, opens, List.cons.injEq] at behind
            have decimal := others.1.2 d (by rw [split]; simp)
            rw [← behind.1, not_isDecimal_opening] at decimal
            cases decimal

/-- What is split off as indexes is written as such behind a name. -/
theorem of_splitIndexes? {name text full : List Char} {groups : List (List Char)}
    (found : splitIndexes? name text = some (full, groups)) :
    ∃ front, text = front ++ bracketed groups ∧ full = name.reverse ++ front ∧ full ≠ [] ∧
      '\n' ∉ front ∧ ∀ group ∈ groups, IsNumeral group := by
  induction text generalizing name with
  | nil => cases found
  | cons c rest ih =>
    rw [splitIndexes?] at found
    split at found
    · rename_i taken split
      split_ifs at split with unnamed
      cases found
      obtain ⟨written, numerals⟩ := bracketed_of_indexGroups? split (by simp)
      refine ⟨[], written, (List.append_nil _).symm, ?_, List.not_mem_nil, numerals⟩
      simpa using unnamed
    · split_ifs at found with broken
      obtain ⟨front, written, named, filled, unbroken, numerals⟩ := ih found
      refine ⟨c :: front, by rw [written, List.cons_append], by rw [named]; simp, filled, ?_,
        numerals⟩
      rw [List.mem_cons, not_or]
      exact ⟨Ne.symm broken, unbroken⟩

/-- Indexes behind a name are found, perhaps with others in front of them. -/
theorem exists_splitIndexes? {name front : List Char} {groups : List (List Char)}
    (filled : groups ≠ []) (named : name.reverse ++ front ≠ []) (unbroken : '\n' ∉ front)
    (numerals : ∀ group ∈ groups, IsNumeral group) :
    ∃ full longer, splitIndexes? name (front ++ bracketed groups) = some (full, longer) ∧
      groups <:+ longer := by
  induction front generalizing name with
  | nil =>
    obtain ⟨first, rest, rfl⟩ := List.exists_cons_of_ne_nil filled
    have given : name.isEmpty = false := by simpa using named
    have taken := indexGroups?_bracketed numerals
    rw [bracketed_cons] at taken
    refine ⟨name.reverse, first :: rest, ?_, List.suffix_rfl⟩
    rw [List.nil_append, bracketed_cons, splitIndexes?, given]
    simp [taken]
  | cons c front ih =>
    rw [List.mem_cons, not_or] at unbroken
    rw [List.cons_append, splitIndexes?]
    split
    · rename_i longer split
      split_ifs at split
      obtain ⟨written, others⟩ := bracketed_of_indexGroups? split (by simp)
      exact ⟨_, _, rfl, @suffix_of_bracketed_append _ _ (c :: front) written.symm numerals others⟩
    · rw [if_neg (Ne.symm unbroken.1)]
      exact ih (by simp) unbroken.2

/-- A part of a path is read unless one of its indexes has too many digits. -/
theorem segmentOf_succeeds_iff {part : List Char} :
    Succeeds (segmentOf part) ↔
      ∀ digits, IsIndexOf digits part → digits.length ≤ digitLimit := by
  have readable (digits : List Char) : Succeeds (indexOf digits) ↔ digits.length ≤ digitLimit := by
    rw [indexOf, ← Nat.not_lt]
    split_ifs with long
    · constructor
      · rintro ⟨number, impossible⟩
        cases impossible
      · exact fun short => absurd long short
    · exact ⟨fun _ => long, fun _ => succeeds_ok _⟩
  rw [segmentOf]
  cases found : splitIndexes? [] part with
  | none =>
    refine ⟨fun _ digits index => ?_, fun _ => succeeds_ok _⟩
    obtain ⟨name, groups, rfl, named, unbroken, numerals, member⟩ := index
    obtain ⟨full, longer, split, -⟩ := @exists_splitIndexes? [] name groups
      (List.ne_nil_of_mem member) named unbroken numerals
    rw [found] at split
    cases split
  | some taken =>
    obtain ⟨full, groups⟩ := taken
    have reads : Succeeds (do return (⟨String.ofList full, ← groups.mapM indexOf⟩ : Segment)) ↔
        ∀ digits ∈ groups, digits.length ≤ digitLimit := by
      rw [succeeds_map_iff, mapM_succeeds_iff]
      simp only [readable]
    refine reads.trans ⟨fun short digits index => ?_, fun short digits member => ?_⟩
    · obtain ⟨name, last, rfl, named, unbroken, numerals, member⟩ := index
      obtain ⟨other, longer, split, suffix⟩ := @exists_splitIndexes? [] name last
        (List.ne_nil_of_mem member) named unbroken numerals
      cases found.symm.trans split
      exact short digits (suffix.subset member)
    · obtain ⟨name, written, same, named, unbroken, numerals⟩ := of_splitIndexes? found
      rw [List.reverse_nil, List.nil_append] at same
      exact short digits ⟨name, groups, written, same ▸ named, unbroken, numerals, member⟩

/-- No index of a path has too many digits to be read. -/
def IndexesFit (path : String) : Prop :=
  ∀ part ∈ parts path.toList, ∀ digits, IsIndexOf digits part → digits.length ≤ digitLimit

/-- A blank path has one empty part. -/
theorem parts_of_isBlankText {path : List Char} (blank : Text.isBlankText path = true) :
    parts path = [[]] := by
  have whole : '.' ∉ path := fun member => by
    have point : Text.isBlank '.' = true := List.all_eq_true.mp blank '.' member
    revert point
    decide
  have nothing : Text.trim path = [] := by
    rw [Text.trim, (Text.isBlankText_iff_trimStart path).mp blank]
    rfl
  rw [parts, List.splitOn_eq_singleton whole, List.map_singleton, nothing]

/-- **A path is read** unless one of its indexes has too many digits. -/
theorem parse_succeeds_iff {path : String} : Succeeds (parse path) ↔ IndexesFit path := by
  rw [parse]
  split_ifs with blank
  · refine ⟨fun _ part member digits index => ?_, fun _ => succeeds_ok _⟩
    rw [parts_of_isBlankText blank, List.mem_singleton] at member
    obtain ⟨name, groups, written, named, -⟩ := index
    rw [member] at written
    exact absurd (List.append_eq_nil_iff.mp written.symm).1 named
  · rw [mapM_succeeds_iff]
    simp only [segmentOf_succeeds_iff, IndexesFit]

end Stencil.Path
