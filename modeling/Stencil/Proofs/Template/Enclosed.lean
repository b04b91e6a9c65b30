import Mathlib.Data.List.Basic
import Mathlib.Tactic.SplitIfs
import Stencil.Template.Token

/-!
# What braces can enclose

A text between a pair of opening and a pair of closing braces is the body of a hole exactly if it
holds no closing brace and no pair of opening braces. Separators do not matter to this, so the
pieces of a body between them and the body as a whole can be looked at apart
(`enclosable_intercalate`). The main statement is `tokens_holeSource`: a text that braces can
enclose is one hole once they do.
-/

namespace Stencil.Token

/-- A text that can be the body of a hole. -/
structure Enclosable (body : List Char) : Prop where
  noClosing : '}' ∉ body
  noOpening : ¬ ['{', '{'] <:+: body

theorem pair_infix_cons_iff {first second c : Char} {rest : List Char} :
    [first, second] <:+: c :: rest ↔
      (c = first ∧ rest.head? = some second) ∨ [first, second] <:+: rest := by
  rw [List.infix_cons_iff, List.cons_prefix_cons]
  cases rest with
  | nil => simp
  | cons d rest => simp [List.cons_prefix_cons, eq_comm]

theorem enclosable_nil : Enclosable [] :=
  ⟨List.not_mem_nil, by simp⟩

theorem enclosable_cons_iff {c : Char} {rest : List Char} :
    Enclosable (c :: rest) ↔
      c ≠ '}' ∧ ¬ (c = '{' ∧ rest.head? = some '{') ∧ Enclosable rest := by
  constructor
  · rintro ⟨noClosing, noOpening⟩
    rw [List.mem_cons, not_or] at noClosing
    rw [pair_infix_cons_iff, not_or] at noOpening
    exact ⟨Ne.symm noClosing.1, noOpening.1, noClosing.2, noOpening.2⟩
  · rintro ⟨solid, alone, noClosing, noOpening⟩
    refine ⟨?_, ?_⟩
    · rw [List.mem_cons, not_or]
      exact ⟨Ne.symm solid, noClosing⟩
    · rw [pair_infix_cons_iff, not_or]
      exact ⟨alone, noOpening⟩

/-- A part of what fits into braces fits into them. -/
theorem Enclosable.of_infix {part body : List Char} (inside : part <:+: body)
    (whole : Enclosable body) : Enclosable part :=
  ⟨fun closing => whole.noClosing (inside.subset closing),
    fun opening => whole.noOpening (opening.trans inside)⟩

/-- What is found as a body can be one. -/
theorem enclosable_of_body? {text body : List Char} (found : body? text = some body) :
    Enclosable body := by
  induction text generalizing body with
  | nil => cases found
  | cons c rest ih =>
    rw [body?] at found
    split_ifs at found with brace second double
    · cases found
      exact enclosable_nil
    · obtain ⟨inner, innerFound, rfl⟩ := Option.map_eq_some_iff.mp found
      refine enclosable_cons_iff.mpr ⟨brace, ?_, ih innerFound⟩
      rintro ⟨opens, follows⟩
      -- the rest of the text begins as its body does, unless that is empty
      obtain ⟨after, rfl⟩ := eq_append_of_body? innerFound
      refine double ⟨opens, ?_⟩
      rw [List.head?_append, follows, Option.some_or]

/-- A text that can be a body is found as one in front of closing braces. -/
theorem body?_append {body : List Char} (inner : Enclosable body) (rest : List Char) :
    body? (body ++ '}' :: '}' :: rest) = some body := by
  induction body with
  | nil => rfl
  | cons c behind ih =>
    obtain ⟨solid, alone, others⟩ := enclosable_cons_iff.mp inner
    have apart : ¬ (c = '{' ∧ (behind ++ '}' :: '}' :: rest).head? = some '{') := by
      rintro ⟨opens, follows⟩
      refine alone ⟨opens, ?_⟩
      cases behind with
      | nil => simp at follows
      | cons d others => simpa using follows
    rw [List.cons_append, body?, if_neg solid, if_neg apart, ih others]
    rfl

/-- What stands in a hole fits into braces. -/
theorem enclosable_of_hole? {text body : List Char} (found : hole? text = some body) :
    Enclosable body := by
  rw [hole?.eq_def] at found
  split at found
  · exact enclosable_of_body? found
  · cases found

/-- Braces around what they can enclose are found as a hole, whatever follows. -/
theorem hole?_holeSource {body : List Char} (inner : Enclosable body) (rest : List Char) :
    hole? (holeSource body ++ rest) = some body := by
  have written : holeSource body ++ rest = '{' :: '{' :: (body ++ '}' :: '}' :: rest) := by
    simp [holeSource]
  rw [written]
  exact body?_append inner rest

/-- The bodies of a text fit into braces. -/
theorem enclosable_of_mem_bodies {text body : List Char} (member : body ∈ bodies (tokens text)) :
    Enclosable body := by
  induction text using tokens_induction with
  | nil => cases member
  | char c rest solid ih =>
    rw [tokens_cons solid] at member
    exact ih member
  | hole inner rest found ih =>
    rw [tokens_hole found] at member
    rcases List.mem_cons.mp member with rfl | later
    · exact enclosable_of_body? found
    · exact ih later

/-- Braces around a text that they can enclose make one hole. -/
theorem tokens_holeSource {body : List Char} (inner : Enclosable body) :
    tokens (holeSource body) = [.hole body] := by
  have taken := tokens_hole (hole?_holeSource inner [])
  rwa [List.append_nil] at taken

section Separator

variable {separator : Char}

theorem enclosable_append_cons_iff (noClosing : separator ≠ '}') (noOpening : separator ≠ '{')
    {front back : List Char} :
    Enclosable (front ++ separator :: back) ↔ Enclosable front ∧ Enclosable back := by
  induction front with
  | nil => simp [enclosable_cons_iff, enclosable_nil, noClosing, noOpening]
  | cons c rest ih =>
    have ahead : (rest ++ separator :: back).head? = some '{' ↔ rest.head? = some '{' := by
      cases rest <;> simp [noOpening]
    rw [List.cons_append, enclosable_cons_iff, enclosable_cons_iff, ih, ahead]
    simp only [and_assoc]

/-- Pieces with a separator between them can be a body if each piece can. -/
theorem enclosable_intercalate (noClosing : separator ≠ '}') (noOpening : separator ≠ '{')
    {pieces : List (List Char)} (inner : ∀ piece ∈ pieces, Enclosable piece) :
    Enclosable ([separator].intercalate pieces) := by
  induction pieces with
  | nil => exact enclosable_nil
  | cons piece rest ih =>
    rw [List.forall_mem_cons] at inner
    cases rest with
    | nil =>
      rw [List.intercalate_singleton]
      exact inner.1
    | cons next others =>
      rw [List.intercalate_cons_cons, List.append_assoc, List.singleton_append]
      exact (enclosable_append_cons_iff noClosing noOpening).mpr ⟨inner.1, ih inner.2⟩

end Separator

end Stencil.Token
