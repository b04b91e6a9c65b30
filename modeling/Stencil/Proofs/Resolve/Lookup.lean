import Mathlib.Data.List.TakeWhile
import Stencil.Proofs.Value.Writable

/-!
# Paths that are followed from every value

A lookup has a result, be it undefined, unless it comes to a sequence with a name of digits that
denotes no position. Sound segments have no such names. The main statement is
`lookup_succeeds_iff`: a path is looked up in every context without a fault exactly if all its
segments but the first are sound; the first one is never looked up in a sequence.
-/

namespace Stencil

open Outcome

/-- Whether a name can be looked up in every value: it is no run of digits, or it is one that
denotes a position. -/
def Value.isSoundName (name : String) : Bool :=
  !isPosition name || name.toList.all Text.isDecimal && name.toList.length ≤ digitLimit

/-- Whether a segment can be followed from every value. -/
def Segment.isSound (segment : Segment) : Bool :=
  Value.isSoundName segment.name

namespace Value

/-- A name is a position if and only if it has digits only, and not too many. -/
theorem positionOf_succeeds_iff {name : String} :
    Succeeds (positionOf name) ↔
      name.toList.all Text.isDecimal = true ∧ name.toList.length ≤ digitLimit := by
  rw [positionOf]
  constructor
  · rintro ⟨position, denotes⟩
    split_ifs at denotes with long decimal
    have whole : name.toList.takeWhile Text.isDecimal = name.toList := by
      rw [List.takeWhile_eq_self_iff]
      exact List.all_eq_true.mp decimal
    rw [whole] at long
    exact ⟨decimal, Nat.not_lt.mp long⟩
  · rintro ⟨decimal, short⟩
    have fits : ¬ digitLimit < (name.toList.takeWhile Text.isDecimal).length :=
      Nat.not_lt.mpr (Nat.le_trans (List.takeWhile_sublist _).length_le short)
    rw [if_neg fits, if_pos decimal]
    exact succeeds_ok _

/-- An item can be asked for by a name if and only if the name is sound. -/
theorem itemNamed_succeeds_iff {items : List Value} {name : String} :
    Succeeds (itemNamed items name) ↔ isSoundName name = true := by
  rw [itemNamed, isSoundName]
  split_ifs with digits
  · rw [succeeds_map_iff, positionOf_succeeds_iff, digits]
    simp
  · simpa [digits] using succeeds_ok undefined

variable {value : Value} {segment : Segment} {path : Path}

/-- A sound segment can be asked of every value. -/
theorem child_succeeds (sound : segment.isSound = true) : Succeeds (value.child segment.name) := by
  cases value with
  | list items => exact itemNamed_succeeds_iff.mpr sound
  | tuple items => exact itemNamed_succeeds_iff.mpr sound
  | bytes data => exact itemNamed_succeeds_iff.mpr sound
  | _ => exact succeeds_ok _

/-- A step along a sound segment succeeds. -/
theorem step_succeeds (sound : segment.isSound = true) : Succeeds (value.step segment) := by
  rw [step]
  split_ifs
  · exact succeeds_ok _
  · exact succeeds_map_iff.mpr (child_succeeds sound)

/-- A path of sound segments can be followed from every value. -/
theorem follow_succeeds (sound : ∀ segment ∈ path, segment.isSound = true) :
    Succeeds (value.follow path) := by
  induction path generalizing value with
  | nil => exact succeeds_ok _
  | cons segment rest ih =>
    rw [List.forall_mem_cons] at sound
    obtain ⟨next, taken⟩ := @step_succeeds value segment sound.1
    rw [follow, taken]
    exact ih sound.2

/-- A value under indexes: lists within each other, with nothing beside it. -/
def under (indices : List Nat) (value : Value) : Value :=
  indices.foldr (fun index inner => .list (List.replicate index .null ++ [inner])) value

/-- The indices that a value is put under lead back to it. -/
theorem foldl_item_under (indices : List Nat) (value : Value) :
    indices.foldl item (under indices value) = value := by
  induction indices with
  | nil => rfl
  | cons index rest ih =>
    have inner : (under (index :: rest) value).item index = under rest value := by
      rw [under, List.foldr_cons, item, List.getD_eq_getElem?_getD,
        List.getElem?_append_right (by simp)]
      simp [under]
    rw [List.foldl_cons, inner, ih]

/-- Putting a writable value under items keeps it writable. -/
theorem isWritable_under {indices : List Nat} (writable : value.isWritable = true) :
    (under indices value).isWritable = true := by
  induction indices with
  | nil => exact writable
  | cons index rest ih =>
    refine areWritable_iff.mpr fun item member => ?_
    rcases List.mem_append.mp member with front | last
    · rw [List.eq_of_mem_replicate front]
      rfl
    · rw [List.mem_singleton.mp last]
      exact ih

/-- A value in which a path ends at its first segment that is not sound, in an empty list. -/
def obstacle : Path → Value
  | [] => .list []
  | segment :: rest =>
    if segment.isSound then ofFields [(segment.name, under segment.indices (obstacle rest))]
    else .list []

/-- A single entry is writable if its value is. -/
theorem isWritable_ofFields_singleton {name : String} (writable : value.isWritable = true) :
    (ofFields [(name, value)]).isWritable = true := by
  refine entriesWritable_iff.mpr fun entry member => ?_
  rw [List.mem_singleton.mp member]
  exact writable

/-- The value that stops a path is writable. -/
theorem isWritable_obstacle (path : Path) : (obstacle path).isWritable = true := by
  induction path with
  | nil => rfl
  | cons segment rest ih =>
    rw [obstacle]
    split_ifs
    · exact isWritable_ofFields_singleton (isWritable_under ih)
    · rfl

/-- A segment is followed in a map that holds its name alone. -/
theorem step_under (segment : Segment) (value : Value) :
    (ofFields [(segment.name, under segment.indices value)]).step segment = .ok value := by
  rw [step_ofFields, Fields.get?_cons, if_pos rfl, Option.getD_some, foldl_item_under]

/-- A path is followed through its obstacle only if all its segments are sound. -/
theorem sound_of_follow_obstacle (follows : Succeeds ((obstacle path).follow path)) :
    ∀ segment ∈ path, segment.isSound = true := by
  induction path with
  | nil => simp
  | cons segment rest ih =>
    rw [obstacle] at follows
    split_ifs at follows with sound
    · rw [follow, step_under, ok_bind] at follows
      exact List.forall_mem_cons.mpr ⟨sound, ih follows⟩
    · obtain ⟨next, steps, -⟩ := succeeds_bind_iff.mp follows
      obtain ⟨found, leads, -⟩ := bind_eq_ok.mp steps
      exact absurd (itemNamed_succeeds_iff.mp ⟨found, leads⟩) sound

end Value

/-- **A path is looked up everywhere** exactly if its segments behind the first are sound. -/
theorem lookup_succeeds_iff {path : Path} :
    (∀ values : Fields Value, values.areWritable = true → Succeeds (lookup path values)) ↔
      ∀ segment ∈ path.tail, segment.isSound = true := by
  cases path with
  | nil => exact ⟨fun _ => by simp, fun _ values _ => succeeds_ok _⟩
  | cons segment rest =>
    constructor
    · intro everywhere
      -- the first name leads to a value in which the rest comes to a list where it is not sound
      let held := Value.under segment.indices (Value.obstacle rest)
      have writable : held.isWritable = true :=
        Value.isWritable_under (Value.isWritable_obstacle rest)
      have followed := everywhere [(segment.name, held)]
        (Value.isWritable_ofFields_singleton writable)
      rw [lookup_cons, Fields.get?_cons, if_pos rfl, Option.getD_some,
        Value.foldl_item_under] at followed
      exact Value.sound_of_follow_obstacle followed
    · intro sound values _
      rw [lookup_cons]
      exact Value.follow_succeeds sound

end Stencil
