import Stencil.Catalog.Basic
import Stencil.Proofs.Context.Leaves
import Stencil.Proofs.Fields
import Stencil.Proofs.Template.Valid
import Stencil.Proofs.Value.Keys

/-!
# Writing by path

A value that is written under a chain of keys is what the path of these names leads to, whatever was
there before (`Value.follow_written`); a path of other names leads to what it would lead to
whatever the value is (`Value.follow_written_of_ne`). A path is written to under its parts as
they stand and read by its names and indexes, so a value is given back exactly if no part of the
path has an index (`Catalog.setValue_resolves_iff`).
-/

namespace Stencil

open Outcome

namespace Value

/-- What a value that stands under a name holds when it is written into. -/
def entriesUnder (name : String) (entries : List (Value × Value)) : List (Value × Value) :=
  match lookupText name entries with
  | some (.map inner) => inner
  | _ => []

/-- What is written under the first of several keys. -/
def written (value : Value) (keys : List String) (below : List (Value × Value)) : Value :=
  if keys.isEmpty then value else .map (Catalog.writeEntry value keys below)

end Value

namespace Catalog

theorem writeEntry_cons (value : Value) (key : String) (rest : List String)
    (entries : List (Value × Value)) :
    writeEntry value (key :: rest) entries =
      Value.setEntry (.text key) (value.written rest (Value.entriesUnder key entries)) entries := by
  cases rest <;> rfl

theorem writeField_cons (value : Value) (key : String) (rest : List String)
    (fields : Fields Value) :
    writeField value (key :: rest) fields =
      Fields.set key
        (value.written rest (Value.entriesUnder key (Value.fieldEntries fields))) fields := by
  rw [writeField, writeEntry_cons, Value.setEntry_fieldEntries, Value.textEntries_fieldEntries]

end Catalog

namespace Value

/-- A segment is followed from a map through the value under its name. -/
theorem follow_map_cons (entries : List (Value × Value)) (segment : Segment) (rest : Path) :
    (Value.map entries).follow (segment :: rest) =
      (segment.indices.foldl item ((lookupText segment.name entries).getD .undefined)).follow
        rest := by
  rw [follow]
  simp only [step, isAbsent, child, bind, Except.bind, pure, Except.pure]
  rfl

/-- **What is written is read:** a value is what the path of the keys leads to under which it was
written. -/
theorem follow_written (value : Value) (keys : List String) (below : List (Value × Value)) :
    (value.written keys below).follow (Path.ofNames keys) = .ok value := by
  induction keys generalizing below with
  | nil => rfl
  | cons key rest ih =>
    change (Value.map (Catalog.writeEntry value (key :: rest) below)).follow
      (⟨key, []⟩ :: Path.ofNames rest) = _
    rw [Catalog.writeEntry_cons, follow_map_cons, lookupText_setEntry_self]
    exact ih _

/-- An index leads nowhere from a map that is written into, whatever the value. -/
theorem foldl_item_written {keys : List String} (filled : keys ≠ []) {indices : List Nat}
    (indexed : indices ≠ []) (value : Value) (below : List (Value × Value)) :
    indices.foldl item (value.written keys below) = .undefined := by
  obtain ⟨key, rest, rfl⟩ := List.exists_cons_of_ne_nil filled
  obtain ⟨index, others, rfl⟩ := List.exists_cons_of_ne_nil indexed
  exact foldl_item_undefined others

/-- A path of other names than the keys does not lead to the value. -/
theorem follow_written_of_ne (one other : Value) {keys : List String} {path : Path}
    (paired : path.length = keys.length) (differ : path.map (·.name) ≠ keys)
    (indices : List Nat) (below : List (Value × Value)) :
    (indices.foldl item (one.written keys below)).follow path =
      (indices.foldl item (other.written keys below)).follow path := by
  induction keys generalizing path indices below with
  | nil => exact absurd (by simpa using paired) differ
  | cons key rest ih =>
    by_cases indexed : indices = []
    · subst indexed
      obtain ⟨segment, later, rfl⟩ := List.exists_cons_of_length_eq_add_one paired
      rw [List.length_cons, List.length_cons, Nat.add_right_cancel_iff] at paired
      change (Value.map (Catalog.writeEntry one (key :: rest) below)).follow (segment :: later) =
        (Value.map (Catalog.writeEntry other (key :: rest) below)).follow (segment :: later)
      rw [Catalog.writeEntry_cons, Catalog.writeEntry_cons, follow_map_cons, follow_map_cons]
      by_cases first : segment.name = key
      · have behind : later.map (·.name) ≠ rest := fun same => differ (by simp [first, same])
        rw [first, lookupText_setEntry_self, lookupText_setEntry_self]
        exact ih paired behind _ _
      · rw [lookupText_setEntry_of_ne first, lookupText_setEntry_of_ne first]
    · rw [foldl_item_written (List.cons_ne_nil key rest) indexed,
        foldl_item_written (List.cons_ne_nil key rest) indexed]

end Value

namespace Context

/-- A context with a variable set. -/
def setVar (context : Context) (name : String) (value : Value) : Context :=
  { context with vars := Fields.set name value context.vars }

/-- The output of a step that hides the variables of its name. -/
def outputNamed (context : Context) (name : String) : Option Value :=
  ((context.stepOutputs.filter (·.1 == name)).getLast?).map (·.2)

variable {context : Context} {name : String}

/-- No output is found under a name that no step has. -/
theorem outputNamed_of_not_mem (free : name ∉ Fields.keys context.stepOutputs) :
    context.outputNamed name = none := by
  have none : context.stepOutputs.filter (·.1 == name) = [] := by
    refine List.filter_eq_nil_iff.mpr fun entry member same => free ?_
    exact List.mem_map.mpr ⟨entry, member, by simpa using same⟩
  rw [outputNamed, none]
  rfl

/-- A name is looked up among the step outputs, then the variables, then the globals. -/
theorem get?_merged (distinct : (Fields.keys context.vars).Nodup) (name : String) :
    Fields.get? context.merged name = (context.outputNamed name).or
      ((Fields.get? context.vars name).or (Fields.get? context.globals name)) := by
  rw [merged, Fields.get?_overlay, Fields.get?_overlay_of_nodup distinct]
  rfl

/-- A variable that was set is found unless an output hides it. -/
theorem get?_merged_setVar_self (distinct : (Fields.keys context.vars).Nodup) (name : String)
    (value : Value) :
    Fields.get? (context.setVar name value).merged name =
      some ((context.outputNamed name).getD value) := by
  rw [get?_merged (Fields.nodup_keys_set name value distinct), setVar, Fields.get?_set_self]
  change (context.outputNamed name).or (some value) = _
  cases context.outputNamed name <;> rfl

/-- A name other than that of the variable that was set is looked up as before. -/
theorem get?_merged_setVar_of_ne (distinct : (Fields.keys context.vars).Nodup) {other : String}
    (apart : other ≠ name) (value : Value) :
    Fields.get? (context.setVar name value).merged other = Fields.get? context.merged other := by
  rw [get?_merged distinct, get?_merged (Fields.nodup_keys_set name value distinct), setVar,
    Fields.get?_set_of_ne _ _ apart]
  rfl

end Context

namespace Path

/-- The name that a path begins with. -/
def firstName (path : String) : String :=
  String.ofList (nameOf ((parts path.toList).headD []))

end Path

namespace Catalog

open Stencil.Path

/-- What writing a value under a path and looking the path up should lead to: the value. -/
def GivesBack (catalog : Catalog) (path : String) (value : Value) : Prop :=
  ∃ next, catalog.setValue path value = .ok next ∧ next.context.resolve path = .ok value

section SetValue

variable {path : String}

/-- A valid path is written to under its parts. -/
theorem writePath_eq (trimmed : Text.trim path.toList = path.toList)
    (valid : isValid path = true) :
    writePath path = (parts path.toList).map String.ofList := by
  obtain ⟨-, validParts⟩ := parts_of_isValid trimmed valid
  rw [writePath, ← parts, List.filter_eq_self.mpr]
  intro part member
  obtain ⟨c, first, -⟩ := exists_beginsIdentifier_of_isValidPart (validParts part member)
  cases part with
  | nil => cases first
  | cons => rfl

/-- A valid path has at least one name to write under. -/
theorem exists_cons_of_writePath (trimmed : Text.trim path.toList = path.toList)
    (valid : isValid path = true) : ∃ key rest, writePath path = key :: rest := by
  rw [writePath_eq trimmed valid, parts]
  refine List.exists_cons_of_ne_nil fun none => ?_
  rw [List.map_eq_nil_iff, List.map_eq_nil_iff] at none
  exact List.splitOn_ne_nil _ _ none

variable {catalog : Catalog} {key : String} {rest : List String}

/-- What a path is set to among the variables: the value, all by itself or in maps. -/
def writtenUnder (catalog : Catalog) (key : String) (rest : List String) (value : Value) : Value :=
  value.written rest (Value.entriesUnder key (Value.fieldEntries catalog.context.vars))

/-- Setting a value changes the variable of the first name. -/
theorem setValue_eq (keys : writePath path = key :: rest) (catalog : Catalog) (value : Value) :
    catalog.setValue path value = .ok { catalog with
      context := catalog.context.setVar key (catalog.writtenUnder key rest value) } := by
  simp only [setValue, keys, writeField_cons]
  rfl

/-- A value that is written under a valid path without indexes is given back. -/
theorem givesBack_of_noIndex (trimmed : Text.trim path.toList = path.toList)
    (valid : isValid path = true) (noIndex : '[' ∉ path.toList)
    (distinct : (Fields.keys catalog.context.vars).Nodup)
    (free : firstName path ∉ Fields.keys catalog.context.stepOutputs) (value : Value) :
    catalog.GivesBack path value := by
  obtain ⟨key, rest, keys⟩ := exists_cons_of_writePath trimmed valid
  have read := parse_of_isValid trimmed valid noIndex
  have first : firstName path = key := by
    rw [writePath_eq trimmed valid] at keys
    obtain ⟨part, others, cut, rfl, -⟩ := List.map_eq_cons_iff.mp keys
    rw [firstName, cut, List.headD_cons,
      nameOf_of_mem_parts trimmed valid noIndex (cut ▸ List.mem_cons_self)]
  rw [← writePath_eq trimmed valid, keys] at read
  rw [first] at free
  refine ⟨_, setValue_eq keys catalog value, ?_⟩
  rw [Context.resolve, read, ok_bind]
  change lookup (⟨key, []⟩ :: ofNames rest) _ = _
  rw [lookup_cons, Context.get?_merged_setVar_self distinct, Context.outputNamed_of_not_mem free]
  exact Value.follow_written value rest _

/-- What is written under an index is lost: the path leads to the same whatever the value. -/
theorem resolve_of_index (trimmed : Text.trim path.toList = path.toList)
    (valid : isValid path = true) (index : '[' ∈ path.toList)
    (distinct : (Fields.keys catalog.context.vars).Nodup) {one other : Value}
    {withOne withOther : Catalog} (setOne : catalog.setValue path one = .ok withOne)
    (setOther : catalog.setValue path other = .ok withOther) :
    withOne.context.resolve path = withOther.context.resolve path := by
  obtain ⟨key, rest, keys⟩ := exists_cons_of_writePath trimmed valid
  rw [setValue_eq keys] at setOne setOther
  cases setOne
  cases setOther
  rw [Context.resolve, Context.resolve]
  cases read : parse path with
  | error fault => rfl
  | ok segments =>
    have differ := names_ne_parts trimmed valid index read
    have paired := congrArg List.length (names_of_isValid trimmed valid read)
    rw [List.length_map, List.length_map, ← List.length_map String.ofList,
      ← writePath_eq trimmed valid, keys] at paired
    rw [← writePath_eq trimmed valid, keys] at differ
    obtain ⟨segment, later, rfl⟩ := List.exists_cons_of_length_eq_add_one paired
    rw [ok_bind, ok_bind, lookup_cons, lookup_cons]
    by_cases first : segment.name = key
    · rw [first, Context.get?_merged_setVar_self distinct,
        Context.get?_merged_setVar_self distinct]
      cases catalog.context.outputNamed key with
      | some output => rfl
      | none =>
        rw [List.length_cons, List.length_cons, Nat.add_right_cancel_iff] at paired
        have behind : later.map (·.name) ≠ rest := fun same => differ (by simp [first, same])
        exact Value.follow_written_of_ne one other paired behind _ _
    · rw [Context.get?_merged_setVar_of_ne distinct first,
        Context.get?_merged_setVar_of_ne distinct first]

/-- **Which paths give back what is written under them.** A valid path does in every catalog, unless
an output of a step hides its first name, exactly if none of its parts has an index. Under an index
every value is lost: the path leads to the same whatever was written. -/
theorem setValue_resolves_iff (trimmed : Text.trim path.toList = path.toList)
    (valid : isValid path = true) :
    ((∀ (catalog : Catalog) (value : Value), (Fields.keys catalog.context.vars).Nodup →
        firstName path ∉ Fields.keys catalog.context.stepOutputs → value.isUndefined = false →
        catalog.GivesBack path value) ↔ '[' ∉ path.toList) ∧
      ('[' ∈ path.toList → ∀ catalog : Catalog, (Fields.keys catalog.context.vars).Nodup →
        ∀ one other withOne withOther, catalog.setValue path one = .ok withOne →
          catalog.setValue path other = .ok withOther →
          withOne.context.resolve path = withOther.context.resolve path) := by
  have lost (index : '[' ∈ path.toList) (catalog : Catalog)
      (distinct : (Fields.keys catalog.context.vars).Nodup) (one other : Value)
      (withOne withOther : Catalog) (setOne : catalog.setValue path one = .ok withOne)
      (setOther : catalog.setValue path other = .ok withOther) :
      withOne.context.resolve path = withOther.context.resolve path :=
    resolve_of_index trimmed valid index distinct setOne setOther
  refine ⟨⟨fun gives index => ?_, fun noIndex catalog value distinct free _ =>
    givesBack_of_noIndex trimmed valid noIndex distinct free value⟩, lost⟩
  -- Two values cannot both be what the path leads to.
  have back (n : Int) : Catalog.empty.GivesBack path (.int n) :=
    gives .empty (.int n) .nil List.not_mem_nil rfl
  obtain ⟨withZero, setZero, zero⟩ := back 0
  obtain ⟨withOne, setOne, one⟩ := back 1
  have same := lost index .empty .nil _ _ _ _ setZero setOne
  rw [zero, one] at same
  cases same

/-- A value is written through a variable that is no map and hides a global. -/
theorem setValue_resolves_iff_nested :
    let catalog : Catalog :=
      ⟨[], ⟨[("form", .map [])], [("form", .int 1)], [("s", .map [])]⟩⟩
    Text.trim "form.email".toList = "form.email".toList ∧ isValid "form.email" = true ∧
      catalog.GivesBack "form.email" (.text "x") := by
  intro catalog
  have trimmed : Text.trim "form.email".toList = "form.email".toList := by decide +kernel
  have valid : isValid "form.email" = true := by decide +kernel
  exact ⟨trimmed, valid, (setValue_resolves_iff trimmed valid).1.mpr (by decide +kernel) catalog
    (.text "x") (by decide +kernel) (by decide +kernel) rfl⟩

/-- A value that is written under an index of an empty catalog is not found again. -/
theorem setValue_indexed :
    Text.trim "a[0]".toList = "a[0]".toList ∧ isValid "a[0]" = true ∧
      firstName "a[0]" ∉ Fields.keys Catalog.empty.context.stepOutputs ∧
      ¬ Catalog.empty.GivesBack "a[0]" (.int 1) := by
  refine ⟨by decide +kernel, by decide +kernel, List.not_mem_nil, ?_⟩
  rintro ⟨next, set, resolved⟩
  cases set
  have nothing : (Catalog.empty.context.setVar "a[0]" (.int 1)).resolve "a[0]" =
      .ok .undefined := by rfl
  cases nothing.symm.trans resolved

end SetValue

end Catalog
end Stencil
