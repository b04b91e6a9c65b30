import Mathlib.Data.List.Infix
import Mathlib.Data.List.Pairwise
import Mathlib.Tactic.SplitIfs
import Stencil.Text.Search

/-!
# Marks that are filled in apart from each other

Marks that have no character in common with each other or with what stands in for one another, each
filled in once. Whatever their order, what is made of a template is the template with the first
occurrence of each mark in the template itself filled in and every other character as it is
(`Text.replaceEach_eq_filled`): a mark that is filled in neither makes nor breaks another one.
-/

namespace Stencil.Text

/-- A mark, and what stands in for its first occurrence. -/
structure Mark where
  old : List Char
  new : List Char
  visible : old ≠ []
  filling : new ≠ []

namespace Mark

/-- Two marks of which neither shares a character with the other or with what stands in for it. -/
structure Apart (first second : Mark) : Prop where
  old : first.old.Disjoint second.old
  new : first.old.Disjoint second.new
  others : second.old.Disjoint first.new

theorem Apart.symm {first second : Mark} (apart : first.Apart second) : second.Apart first :=
  ⟨List.disjoint_symm apart.old, apart.others, apart.new⟩

/-- A text with the first occurrence of a mark filled in. -/
def replace (mark : Mark) (text : List Char) : List Char :=
  replaceFirst mark.old mark.new text

/-- Where a mark occurs first. -/
def place? (mark : Mark) (text : List Char) : Option Nat :=
  text.tails.findIdx? mark.old.isPrefixOf

/-- Whether the first occurrence of a mark begins at a place. -/
def beginsAt (mark : Mark) (text : List Char) (place : Nat) : Bool :=
  mark.place? text == some place

/-- Whether the first occurrence of a mark holds a place. -/
def covers (mark : Mark) (text : List Char) (place : Nat) : Bool :=
  (mark.place? text).any fun first => first ≤ place && place < first + mark.old.length

end Mark

/-- What a template holds at a place when its marks are filled in: what stands in for a mark that
occurs there first, nothing within such a mark, and the character itself elsewhere. -/
def filledAt (marks : List Mark) (template : List Char) (place : Nat) (c : Char) : List Char :=
  (marks.filter (·.beginsAt template place)).flatMap (·.new)
    ++ if marks.any (·.covers template place) then [] else [c]

/-- A template with the first occurrence of each mark in it filled in. -/
def filled (marks : List Mark) (template : List Char) : List Char :=
  (template.mapIdx (filledAt marks template)).flatten

namespace Mark

variable {mark first second : Mark} {text front rest part : List Char} {c : Char}

section Replace

theorem replace_cons (absent : ¬mark.old <+: c :: rest) :
    mark.replace (c :: rest) = c :: mark.replace rest :=
  if_neg (mt List.isPrefixOf_iff_prefix.mp absent)

/-- A mark at the beginning is replaced. -/
theorem replace_old (mark : Mark) (rest : List Char) :
    mark.replace (mark.old ++ rest) = mark.new ++ rest := by
  have begins : mark.old.isPrefixOf (mark.old ++ rest) = true :=
    List.isPrefixOf_iff_prefix.mpr (List.prefix_append _ _)
  obtain ⟨c, others, split⟩ := List.exists_cons_of_ne_nil
    (List.append_ne_nil_of_left_ne_nil mark.visible rest)
  rw [split] at begins
  rw [replace, split, replaceFirst, if_pos begins, ← split, List.drop_left]

/-- A mark does not begin with a character that it does not have. -/
theorem not_prefix_of_not_mem (absent : c ∉ mark.old) (rest : List Char) :
    ¬mark.old <+: c :: rest := by
  obtain ⟨first, others, split⟩ := List.exists_cons_of_ne_nil mark.visible
  rw [split, List.cons_prefix_cons]
  rintro ⟨rfl, -⟩
  exact absent (split ▸ List.mem_cons_self)

/-- A mark is not filled in within a text that it shares no character with. -/
theorem replace_append (foreign : mark.old.Disjoint front) (rest : List Char) :
    mark.replace (front ++ rest) = front ++ mark.replace rest := by
  induction front with
  | nil => rfl
  | cons c others ih =>
    rw [List.disjoint_cons_right] at foreign
    rw [List.cons_append, replace_cons (not_prefix_of_not_mem foreign.1 _), ih foreign.2]
    rfl

/-- A mark that is filled in makes and breaks no beginning of a text with other characters. -/
theorem prefix_replace_iff (old : part.Disjoint mark.old) (new : part.Disjoint mark.new)
    (text : List Char) : part <+: mark.replace text ↔ part <+: text := by
  induction text generalizing part with
  | nil => rfl
  | cons c rest ih =>
    cases part with
    | nil => simp
    | cons p others =>
      rw [List.disjoint_cons_left] at old new
      by_cases front : mark.old <+: c :: rest
      · -- neither the mark nor what stands in for it begins like the part
        obtain ⟨after, split⟩ := front
        obtain ⟨head, tail, filling⟩ := List.exists_cons_of_ne_nil mark.filling
        obtain ⟨first, behind, visible⟩ := List.exists_cons_of_ne_nil mark.visible
        rw [← split, replace_old, visible, filling, List.cons_append, List.cons_append,
          List.cons_prefix_cons, List.cons_prefix_cons]
        refine iff_of_false ?_ ?_
        · rintro ⟨rfl, -⟩
          exact new.1 (filling ▸ List.mem_cons_self)
        · rintro ⟨rfl, -⟩
          exact old.1 (visible ▸ List.mem_cons_self)
      · rw [replace_cons front, List.cons_prefix_cons, List.cons_prefix_cons, ih old.2 new.2]

/-- Marks that are apart are filled in in either order. -/
theorem replace_comm (apart : first.Apart second) (text : List Char) :
    first.replace (second.replace text) = second.replace (first.replace text) := by
  induction text with
  | nil => rfl
  | cons c rest ih =>
    by_cases front : first.old <+: c :: rest
    · obtain ⟨after, split⟩ := front
      rw [← split, second.replace_append (List.disjoint_symm apart.old), replace_old, replace_old,
        second.replace_append apart.others]
    by_cases also : second.old <+: c :: rest
    · obtain ⟨after, split⟩ := also
      rw [← split, first.replace_append apart.old, replace_old, replace_old,
        first.replace_append apart.new]
    · have stays : ¬first.old <+: second.replace (c :: rest) :=
        mt (prefix_replace_iff apart.old apart.new _).mp front
      have alsoStays : ¬second.old <+: first.replace (c :: rest) :=
        mt (prefix_replace_iff apart.symm.old apart.symm.new _).mp also
      rw [replace_cons also] at stays ⊢
      rw [replace_cons front] at alsoStays ⊢
      rw [replace_cons stays, replace_cons alsoStays, ih]

end Replace

section Place

/-- A mark at the beginning is at place zero. -/
theorem place?_cons_of_prefix (begins : mark.old <+: c :: rest) :
    mark.place? (c :: rest) = some 0 := by
  rw [place?, List.tails_cons, List.findIdx?_cons, if_pos (List.isPrefixOf_iff_prefix.mpr begins)]

theorem place?_cons (absent : ¬mark.old <+: c :: rest) :
    mark.place? (c :: rest) = (mark.place? rest).map (· + 1) := by
  rw [place?, List.tails_cons, List.findIdx?_cons,
    if_neg (mt List.isPrefixOf_iff_prefix.mp absent)]
  rfl

theorem place?_append (foreign : mark.old.Disjoint front) (rest : List Char) :
    mark.place? (front ++ rest) = (mark.place? rest).map (· + front.length) := by
  induction front with
  | nil => simp
  | cons c others ih =>
    rw [List.disjoint_cons_right] at foreign
    rw [List.cons_append, place?_cons (not_prefix_of_not_mem foreign.1 _), ih foreign.2,
      Option.map_map]
    rfl

variable {skip place : Nat} (shifted : mark.place? text = (mark.place? rest).map (· + skip))
include shifted

theorem beginsAt_add : mark.beginsAt text (place + skip) = mark.beginsAt rest place := by
  rw [beginsAt, beginsAt, shifted]
  cases mark.place? rest <;> simp

/-- No mark begins in front of the place looked at. -/
theorem beginsAt_lt (before : place < skip) : mark.beginsAt text place = false := by
  rw [beginsAt, shifted, beq_eq_false_iff_ne]
  cases mark.place? rest with
  | none => exact nofun
  | some first =>
    rw [Option.map_some, Ne, Option.some_inj]
    omega

theorem covers_add : mark.covers text (place + skip) = mark.covers rest place := by
  rw [covers, covers, shifted, Bool.eq_iff_iff]
  cases mark.place? rest with
  | none => rfl
  | some first =>
    simp only [Option.map_some, Option.any_some, Bool.and_eq_true, decide_eq_true_eq]
    omega

/-- No mark covers what stands in front of it. -/
theorem covers_lt (before : place < skip) : mark.covers text place = false := by
  rw [covers, shifted, Bool.eq_false_iff]
  cases mark.place? rest with
  | none => exact nofun
  | some first =>
    simp only [Option.map_some, Option.any_some, Ne, Bool.and_eq_true, decide_eq_true_eq]
    omega

end Place

end Mark

section Filled

variable {marks front others : List Mark} {mark : Mark} {text rest : List Char} {c : Char}
  {skip place : Nat}

section Shifted

variable (shifted : ∀ mark ∈ marks, mark.place? text = (mark.place? rest).map (· + skip))
include shifted

theorem filledAt_add : filledAt marks text (place + skip) c = filledAt marks rest place c := by
  have covered : marks.any (·.covers text (place + skip)) = marks.any (·.covers rest place) := by
    rw [Bool.eq_iff_iff, List.any_eq_true, List.any_eq_true]
    refine exists_congr fun mark => and_congr_right fun member => ?_
    rw [Mark.covers_add (shifted mark member)]
  rw [filledAt, filledAt, covered,
    List.filter_congr fun mark member => Mark.beginsAt_add (shifted mark member)]

/-- No mark begins in front of the rest. -/
theorem filter_beginsAt_lt (before : place < skip) : marks.filter (·.beginsAt text place) = [] :=
  List.filter_eq_nil_iff.mpr fun mark member => by
    rw [Mark.beginsAt_lt (shifted mark member) before]
    exact Bool.false_ne_true

/-- A character in front of every mark stays. -/
theorem filledAt_lt (before : place < skip) : filledAt marks text place c = [c] := by
  have covered : marks.any (·.covers text place) = false :=
    List.any_eq_false.mpr fun mark member => by
      rw [Mark.covers_lt (shifted mark member) before]
      exact Bool.false_ne_true
  rw [filledAt, covered, filter_beginsAt_lt shifted before]
  rfl

end Shifted

/-- In front of the first mark a template stays as it is. -/
theorem filled_cons (absent : ∀ mark ∈ marks, ¬mark.old <+: c :: rest) :
    filled marks (c :: rest) = c :: filled marks rest := by
  have shifted := fun mark member => Mark.place?_cons (absent mark member)
  have later : (fun place => filledAt marks (c :: rest) (place + 1)) = filledAt marks rest := by
    funext place d
    exact filledAt_add shifted
  rw [filled, List.mapIdx_cons, filledAt_lt shifted Nat.zero_lt_one, later]
  rfl

section Old

variable (begins : mark.place? text = some 0)
include begins

/-- Behind a mark at the front of a text nothing is left of it. -/
theorem filledAt_ge (after : mark.old.length ≤ place) :
    filledAt (front ++ mark :: others) text place c = filledAt (front ++ others) text place c := by
  have visible := List.length_pos_iff.mpr mark.visible
  have apart : mark.beginsAt text place = false := by
    rw [Mark.beginsAt, begins, beq_eq_false_iff_ne, Ne, Option.some_inj]
    omega
  have past : mark.covers text place = false := by
    rw [Mark.covers, begins, Bool.eq_false_iff]
    simp only [Option.any_some, Ne, Bool.and_eq_true, decide_eq_true_eq]
    omega
  rw [filledAt, filledAt, List.filter_append, List.filter_append, List.any_append, List.any_append,
    List.filter_cons_of_neg (by rw [apart]; exact Bool.false_ne_true), List.any_cons, past,
    Bool.false_or]

/-- A mark at the front of a text is filled in, and the others do not begin within it. -/
theorem filledAt_old (shifted : ∀ other ∈ front ++ others,
      other.place? text = (other.place? rest).map (· + mark.old.length))
    (inside : place < mark.old.length) :
    filledAt (front ++ mark :: others) text place c = if place = 0 then mark.new else [] := by
  rw [List.forall_mem_append] at shifted
  have covered : mark.covers text place = true := by
    rw [Mark.covers, begins]
    simpa using inside
  rw [filledAt, List.filter_append, filter_beginsAt_lt shifted.1 inside, List.filter_cons,
    filter_beginsAt_lt shifted.2 inside, List.any_append, List.any_cons, covered, Bool.true_or,
    Bool.or_true, Mark.beginsAt, begins]
  cases place <;> simp

end Old

/-- A mark at the front of a template is filled in, and the others in what is behind it. -/
theorem filled_old (apart : ∀ other ∈ front ++ others, mark.Apart other) (rest : List Char) :
    filled (front ++ mark :: others) (mark.old ++ rest) =
      mark.new ++ filled (front ++ others) rest := by
  obtain ⟨c, more, split⟩ := List.exists_cons_of_ne_nil mark.visible
  have begins : mark.place? (mark.old ++ rest) = some 0 := by
    rw [split]
    exact Mark.place?_cons_of_prefix (split ▸ List.prefix_append _ _)
  have shifted := fun other member =>
    Mark.place?_append (List.disjoint_symm (apart other member).old) rest
  have old : mark.old.mapIdx (filledAt (front ++ mark :: others) (mark.old ++ rest)) =
      mark.old.mapIdx fun place _ => if place = 0 then mark.new else [] :=
    List.mapIdx_eq_mapIdx_iff.mpr fun place inside => filledAt_old begins shifted inside
  have behind : (fun place => filledAt (front ++ mark :: others) (mark.old ++ rest)
      (place + mark.old.length)) = filledAt (front ++ others) rest := by
    funext place d
    rw [filledAt_ge begins (Nat.le_add_left _ _), filledAt_add shifted]
  rw [filled, List.mapIdx_append, List.flatten_append, old, behind, filled]
  congr 1
  rw [split]
  simp

end Filled

/-- A text with one mark after the other filled in, each in what the one before it has left. -/
def replaceEach (marks : List Mark) (text : List Char) : List Char :=
  marks.foldl (fun text mark => mark.replace text) text

section ReplaceEach

variable {marks order front others : List Mark} {mark : Mark} {text rest : List Char} {c : Char}

theorem replaceEach_nil (marks : List Mark) : replaceEach marks [] = [] := by
  induction marks with
  | nil => rfl
  | cons mark others ih => exact ih

theorem replaceEach_append {start : List Char} (foreign : ∀ mark ∈ marks, mark.old.Disjoint start)
    (rest : List Char) : replaceEach marks (start ++ rest) = start ++ replaceEach marks rest := by
  induction marks generalizing rest with
  | nil => rfl
  | cons mark others ih =>
    rw [List.forall_mem_cons] at foreign
    rw [replaceEach, List.foldl_cons, Mark.replace_append foreign.1]
    exact ih foreign.2 _

theorem replaceEach_cons (apart : marks.Pairwise Mark.Apart)
    (absent : ∀ mark ∈ marks, ¬mark.old <+: c :: rest) :
    replaceEach marks (c :: rest) = c :: replaceEach marks rest := by
  induction marks generalizing rest with
  | nil => rfl
  | cons mark others ih =>
    rw [List.forall_mem_cons] at absent
    rw [List.pairwise_cons] at apart
    rw [replaceEach, List.foldl_cons, Mark.replace_cons absent.1]
    refine ih apart.2 fun other member => ?_
    have away := (apart.1 other member).symm
    rw [← Mark.replace_cons absent.1, Mark.prefix_replace_iff away.old away.new]
    exact absent.2 other member

/-- A mark at the beginning is replaced, and the others are replaced behind it. -/
theorem replaceEach_old (apart : ∀ other ∈ front ++ others, mark.Apart other) (rest : List Char) :
    replaceEach (front ++ mark :: others) (mark.old ++ rest) =
      mark.new ++ replaceEach (front ++ others) rest := by
  have split (first second : List Mark) (text : List Char) :
      replaceEach (first ++ second) text = replaceEach second (replaceEach first text) :=
    List.foldl_append
  rw [List.forall_mem_append] at apart
  rw [split, replaceEach_append fun other member => List.disjoint_symm (apart.1 other member).old,
    split]
  change replaceEach others (mark.replace (mark.old ++ _)) = _
  rw [Mark.replace_old, replaceEach_append fun other member => (apart.2 other member).others]

/-- The order in which marks are filled in does not matter. -/
theorem replaceEach_perm (apart : marks.Pairwise Mark.Apart) (same : order.Perm marks)
    (text : List Char) : replaceEach order text = replaceEach marks text := by
  have symmetric : Std.Symm Mark.Apart := ⟨fun _ _ => Mark.Apart.symm⟩
  refine same.foldl_eq' (fun first member second also text => ?_) text
  rcases eq_or_ne first second with rfl | differ
  · rfl
  · have away := apart.forall (same.mem_iff.mp member) (same.mem_iff.mp also) differ
    exact Mark.replace_comm away.symm text

/-- **Marks are filled in apart from each other.** Filling in one mark after the other, each in what
the one before it has left, fills in the first occurrence of each in the template itself. -/
theorem replaceEach_eq_filled {marks : List Mark} (apart : marks.Pairwise Mark.Apart)
    (template : List Char) : replaceEach marks template = filled marks template := by
  match template with
  | [] => exact replaceEach_nil marks
  | c :: rest =>
    -- a step goes past one character, or past a mark, which is then no longer looked for
    by_cases absent : ∀ mark ∈ marks, ¬mark.old <+: c :: rest
    · rw [replaceEach_cons apart absent, filled_cons absent, replaceEach_eq_filled apart rest]
    · push Not at absent
      obtain ⟨mark, member, behind, split⟩ := absent
      obtain ⟨front, others, rfl⟩ := List.append_of_mem member
      have moved := (List.perm_middle.pairwise_iff Mark.Apart.symm).mp apart
      obtain ⟨away, fewer⟩ := List.pairwise_cons.mp moved
      rw [← split, replaceEach_old away, filled_old away, replaceEach_eq_filled fewer behind]
termination_by template.length
decreasing_by
  · exact Nat.lt_succ_self _
  · have total := congrArg List.length split
    have visible := List.length_pos_iff.mpr mark.visible
    rw [List.length_append] at total
    omega

end ReplaceEach

end Stencil.Text
