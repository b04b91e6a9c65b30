import Stencil.Catalog.Operation
import Stencil.Proofs.Catalog.Write
import Stencil.Proofs.Value.Below

/-!
# The laws of writing by path

A value that is written under a chain of keys is what the chain leads to afterwards, and chains that
part from it lead to what they led to before (`Value.below?_writeEntry`,
`Value.below?_writeEntry_of_apart`). The second of two values that are written under one chain is
all that is left of the two (`Catalog.writeEntry_writeEntry`), and under chains that part from each
other the order of writing shows in the order of entries only (`Catalog.writeEntry_comm`). These are
the laws of `Catalog.setValue` as an operation on a catalog (`Catalog.setValue_lawful`).
-/

namespace Stencil

namespace Value

/-- A map in the place of the value under a name holds the entries that are written into. -/
theorem entriesUnder_setEntry_map (name : String) (inner entries : List (Value × Value)) :
    entriesUnder name (setEntry (.text name) (.map inner) entries) = inner := by
  unfold entriesUnder
  rw [lookupText_setEntry_self]

/-- Writing an entry leaves what stands under every other name. -/
theorem entriesUnder_setEntry_of_ne {name other : String} (apart : other ≠ name) (value : Value)
    (entries : List (Value × Value)) :
    entriesUnder other (setEntry (.text name) value entries) = entriesUnder other entries := by
  unfold entriesUnder
  rw [lookupText_setEntry_of_ne apart]

/-- Keys lead from the entries that are written into where they lead from the value itself. -/
theorem below?_entriesUnder (name : String) (entries : List (Value × Value)) (key : Value)
    (rest : List Value) :
    below? (key :: rest) (.map (entriesUnder name entries)) =
      (lookupKey (.text name) entries).bind (below? (key :: rest)) := by
  unfold entriesUnder
  rw [lookupKey_text]
  cases lookupText name entries with
  | none => rfl
  | some value => cases value <;> rfl

theorem written_cons (value : Value) (key : String) (rest : List String)
    (entries : List (Value × Value)) :
    value.written (key :: rest) entries = .map (Catalog.writeEntry value (key :: rest) entries) :=
  rfl

/-- What is written under keys is what they lead to. -/
theorem below?_written (value : Value) (keys : List String) (entries : List (Value × Value)) :
    below? (keys.map .text) (value.written keys entries) = some value := by
  induction keys generalizing entries with
  | nil => rfl
  | cons key rest ih =>
    rw [written_cons, Catalog.writeEntry_cons, List.map_cons, below?, lookupKey_text,
      lookupText_setEntry_self, Option.bind_some, ih]

/-- Keys that part from those under which a value is written lead where they led before. -/
theorem below?_writeEntry_of_apart (value : Value) {keys : List String} {others : List Value}
    (notFront : ¬ others <+: keys.map .text) (notBehind : ¬ keys.map .text <+: others)
    (entries : List (Value × Value)) :
    below? others (.map (Catalog.writeEntry value keys entries)) =
      below? others (.map entries) := by
  induction keys generalizing others entries with
  | nil => exact absurd List.nil_prefix notBehind
  | cons key rest ih =>
    cases others with
    | nil => exact absurd List.nil_prefix notFront
    | cons other more =>
      rw [Catalog.writeEntry_cons, below?, below?]
      by_cases same : other = .text key
      · subst same
        rw [List.map_cons, List.cons_prefix_cons] at notFront notBehind
        -- Neither chain ends here, or it would be the front of the other.
        cases rest with
        | nil => exact absurd ⟨rfl, List.nil_prefix⟩ notBehind
        | cons next later =>
          cases more with
          | nil => exact absurd ⟨rfl, List.nil_prefix⟩ notFront
          | cons another behind =>
            rw [lookupKey_text, lookupText_setEntry_self, Option.bind_some, written_cons,
              ← below?_entriesUnder]
            apply ih
            · exact fun front => notFront ⟨rfl, front⟩
            · exact fun front => notBehind ⟨rfl, front⟩
      · rw [lookupKey_setEntry_of_ne same]

end Value

namespace Catalog

open Value

/-- The second of two values that are written under the same keys is all that is left of them. -/
theorem writeEntry_writeEntry (first second : Value) (keys : List String)
    (entries : List (Value × Value)) :
    writeEntry second keys (writeEntry first keys entries) = writeEntry second keys entries := by
  induction keys generalizing entries with
  | nil => rfl
  | cons key rest ih =>
    rw [writeEntry_cons, writeEntry_cons, writeEntry_cons, setEntry_setEntry]
    cases rest with
    | nil => rfl
    | cons next later =>
      rw [written_cons, written_cons, written_cons, entriesUnder_setEntry_map, ih]

/-- **Writing under keys that part** from each other in one order or the other leads to maps that
differ in order only. -/
theorem writeEntry_comm (one other : Value) {keys others : List String}
    (notFront : ¬ keys <+: others) (notBehind : ¬ others <+: keys)
    (entries : List (Value × Value)) :
    Rearranged (.map (writeEntry one keys (writeEntry other others entries)))
      (.map (writeEntry other others (writeEntry one keys entries))) := by
  induction keys generalizing others entries with
  | nil => exact absurd List.nil_prefix notFront
  | cons key rest ih =>
    cases others with
    | nil => exact absurd List.nil_prefix notBehind
    | cons name more =>
      rw [writeEntry_cons, writeEntry_cons, writeEntry_cons, writeEntry_cons]
      by_cases same : key = name
      · subst same
        rw [List.cons_prefix_cons] at notFront notBehind
        cases rest with
        | nil => exact absurd ⟨rfl, List.nil_prefix⟩ notFront
        | cons next later =>
          cases more with
          | nil => exact absurd ⟨rfl, List.nil_prefix⟩ notBehind
          | cons another behind =>
            simp only [written_cons, entriesUnder_setEntry_map, setEntry_setEntry]
            apply Rearranged.setEntry_congr
            apply ih
            · exact fun front => notFront ⟨rfl, front⟩
            · exact fun front => notBehind ⟨rfl, front⟩
      · rw [entriesUnder_setEntry_of_ne same, entriesUnder_setEntry_of_ne (Ne.symm same)]
        exact Rearranged.setEntry_comm same _ _ entries

/-- Writing into a dictionary with text keys is writing into its entries. -/
theorem fieldEntries_writeField (value : Value) (keys : List String) (fields : Fields Value) :
    fieldEntries (writeField value keys fields) = writeEntry value keys (fieldEntries fields) := by
  cases keys with
  | nil =>
    unfold writeField writeEntry
    rw [textEntries_fieldEntries]
  | cons key rest => rw [writeField_cons, writeEntry_cons, setEntry_fieldEntries]

/-- Of two writes under the same names, the second stays. -/
theorem writeField_writeField (first second : Value) (keys : List String) (fields : Fields Value) :
    writeField second keys (writeField first keys fields) = writeField second keys fields := by
  rw [writeField, fieldEntries_writeField, writeEntry_writeEntry]
  rfl

/-- The value that keys lead to among the variables of the live context. -/
def varBelow? (catalog : Catalog) (keys : List Value) : Option Value :=
  below? keys (.ofFields catalog.context.vars)

/-- What writing a value under keys should lead to: the value under the keys, and all else as it
was. -/
structure Wrote (catalog next : Catalog) (keys : List String) (value : Value) : Prop where
  reads : next.varBelow? (keys.map .text) = some value
  frame : ∀ others : List Value, ¬ others <+: keys.map .text → ¬ keys.map .text <+: others →
    next.varBelow? others = catalog.varBelow? others
  globals : next.context.globals = catalog.context.globals
  stepOutputs : next.context.stepOutputs = catalog.context.stepOutputs
  definitions : next.definitions = catalog.definitions

/-- Two catalogs differ in the order of entries among their variables only. -/
structure SameButOrder (first second : Catalog) : Prop where
  vars : (Value.ofFields first.context.vars).Rearranged (.ofFields second.context.vars)
  globals : first.context.globals = second.context.globals
  stepOutputs : first.context.stepOutputs = second.context.stepOutputs
  definitions : first.definitions = second.definitions

/-- The catalog with a value written under keys among its variables. -/
def withVariable (catalog : Catalog) (keys : List String) (value : Value) : Catalog :=
  { catalog with
    context := { catalog.context with vars := writeField value keys catalog.context.vars } }

variable {catalog : Catalog} {path : String}

/-- Writing to a path without names fails and changes nothing. -/
theorem perform_setValue_of_blank (blank : writePath path = []) (value : Value) :
    catalog.perform (.setValue path value) = (.error .emptyPath, catalog) := by
  simp only [perform, setValue, blank]
  rfl

/-- Writing to a path with names succeeds. -/
theorem perform_setValue (filled : writePath path ≠ []) (value : Value) :
    catalog.perform (.setValue path value) =
      (.ok .done, catalog.withVariable (writePath path) value) := by
  have keys : (writePath path).isEmpty = false := List.isEmpty_eq_false_iff.mpr filled
  simp only [perform, setValue, keys]
  rfl

/-- Writing once is the last of what is written in a row. -/
theorem run_setValue (filled : writePath path ≠ []) (value : Value) (later : List Operation) :
    catalog.run (.setValue path value :: later) =
      (catalog.withVariable (writePath path) value).run later := by
  unfold run
  rw [List.foldl_cons, perform_setValue filled]

/-- A written value can be read back, and nothing else has changed. -/
theorem wrote_withVariable (catalog : Catalog) {keys : List String} (filled : keys ≠ [])
    (value : Value) : catalog.Wrote (catalog.withVariable keys value) keys value where
  reads := by
    obtain ⟨key, rest, rfl⟩ := List.exists_cons_of_ne_nil filled
    unfold varBelow? withVariable ofFields
    rw [fieldEntries_writeField, ← written_cons, below?_written]
  frame := by
    intro others notFront notBehind
    unfold varBelow? withVariable ofFields
    rw [fieldEntries_writeField, below?_writeEntry_of_apart value notFront notBehind]
  globals := rfl
  stepOutputs := rfl
  definitions := rfl

/-- Of two writes of a catalog under the same names, the second stays. -/
theorem withVariable_withVariable (catalog : Catalog) (keys : List String) (first second : Value) :
    (catalog.withVariable keys first).withVariable keys second =
      catalog.withVariable keys second := by
  simp only [withVariable, writeField_writeField]

/-- Writes at places apart from each other can be exchanged. -/
theorem sameButOrder_withVariable (catalog : Catalog) (one other : Value)
    {keys others : List String} (notFront : ¬ keys <+: others) (notBehind : ¬ others <+: keys) :
    SameButOrder ((catalog.withVariable others other).withVariable keys one)
      ((catalog.withVariable keys one).withVariable others other) where
  vars := by
    unfold withVariable ofFields
    simp only [fieldEntries_writeField]
    exact writeEntry_comm one other notFront notBehind _
  globals := rfl
  stepOutputs := rfl
  definitions := rfl

/-- **Writing by path is lawful.** A path without keys is refused, and the catalog stays as it is.
Under a path with keys the value is written: the keys lead to it, and all else is as it was. What
was written under the same path before is gone, and writing under two paths of which neither is the
front of the other leads to the same in either order, but for the order of entries. -/
theorem setValue_lawful (catalog : Catalog) (path : String) (value : Value) :
    (writePath path = [] →
      catalog.perform (.setValue path value) = (.error .emptyPath, catalog)) ∧
    (writePath path ≠ [] → ∃ next, catalog.perform (.setValue path value) = (.ok .done, next) ∧
      catalog.Wrote next (writePath path) value) ∧
    (∀ earlier, catalog.run [.setValue path earlier, .setValue path value] =
      catalog.run [.setValue path value]) ∧
    (∀ other beside, ¬ writePath path <+: writePath other → ¬ writePath other <+: writePath path →
      SameButOrder (catalog.run [.setValue other beside, .setValue path value])
        (catalog.run [.setValue path value, .setValue other beside])) := by
  refine ⟨fun blank => perform_setValue_of_blank blank value, ?_, ?_, ?_⟩
  · intro filled
    exact ⟨_, perform_setValue filled value, wrote_withVariable catalog filled value⟩
  · intro earlier
    by_cases blank : writePath path = []
    · unfold run
      simp only [List.foldl_cons, perform_setValue_of_blank blank]
    · rw [run_setValue blank, run_setValue blank, run_setValue blank, withVariable_withVariable]
  · intro other beside notFront notBehind
    have filled : writePath path ≠ [] := fun blank => notFront (blank ▸ List.nil_prefix)
    have filledOther : writePath other ≠ [] := fun blank => notBehind (blank ▸ List.nil_prefix)
    rw [run_setValue filledOther, run_setValue filled, run_setValue filled,
      run_setValue filledOther]
    exact sameButOrder_withVariable catalog value beside notFront notBehind

/-- A map is written into at two places, through a value that is no map and beside it. -/
theorem setValue_lawful_nested :
    let catalog : Catalog := ⟨[], ⟨[], [("a", .map [(.text "b", .int 1)])], []⟩⟩
    writePath "a. b.c" ≠ [] ∧ ¬ writePath "a. b.c" <+: writePath "a.d" ∧
      ¬ writePath "a.d" <+: writePath "a. b.c" ∧
      (∃ next, catalog.perform (.setValue "a. b.c" .null) = (.ok .done, next) ∧
        catalog.Wrote next ["a", "b", "c"] .null) ∧
      SameButOrder (catalog.run [.setValue "a.d" (.int 2), .setValue "a. b.c" .null])
        (catalog.run [.setValue "a. b.c" .null, .setValue "a.d" (.int 2)]) := by
  intro catalog
  have filled : writePath "a. b.c" ≠ [] := by decide +kernel
  have notFront : ¬ writePath "a. b.c" <+: writePath "a.d" := by decide +kernel
  have notBehind : ¬ writePath "a.d" <+: writePath "a. b.c" := by decide +kernel
  have keys : writePath "a. b.c" = ["a", "b", "c"] := by decide +kernel
  obtain ⟨-, writes, -, commutes⟩ := setValue_lawful catalog "a. b.c" .null
  rw [keys] at writes
  exact ⟨filled, notFront, notBehind, writes (List.cons_ne_nil _ _),
    commutes "a.d" (.int 2) notFront notBehind⟩

end Catalog
end Stencil
