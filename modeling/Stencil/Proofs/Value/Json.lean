import Stencil.Proofs.Json.Compact
import Stencil.Proofs.Value.Keys
import Stencil.Proofs.Value.Parts

/-!
# Values and their JSON text

A value has a JSON text unless a byte string stands in it or a map with a key that is no name
(`Value.jsonText_succeeds_iff`). Where the format has a form for all that stands in a value, the
text is a document that is read as the value and as nothing else (`Value.denotes_of_jsonText`).
-/

namespace Stencil

open Outcome

namespace Json

/-- The value of a document without parts, unless it is a literal. -/
def scalar? : Json → Option Value
  | .null => some .null
  | .bool b => some (.bool b)
  | .int n => some (.int n)
  | .text s => some (.text s)
  | _ => none

/-- Whether a text is a document of the JSON format that has a value and no other, in whatever way
it is taken apart. -/
def Denotes (text : String) (value : Value) : Prop :=
  (∃ document : Document, document.text = text) ∧
    ∀ document : Document, document.text = text → document.root.value = value

/-- A number is read as an integer of its value or else as a literal. -/
theorem Number.json_cases (number : Number) :
    (∃ n, number.json = .int n ∧ number.value = .int n) ∨
      ∃ spelling, number.json = .literal spelling := by
  by_cases integer : number.isInteger = true
  · rw [Number.json, Number.value, if_pos integer, if_pos integer]
    exact .inl ⟨_, rfl, rfl⟩
  · rw [Number.json, if_neg integer]
    exact .inr ⟨_, rfl⟩

/-- A document without parts that is no literal is written as it stands. -/
theorem isWritten_of_scalar? {document : Json} {value : Value}
    (known : document.scalar? = some value) : document.IsWritten := by
  cases document with
  | null => exact isWritten_null
  | bool b => exact isWritten_bool b
  | int n => exact isWritten_int n
  | text s => exact isWritten_text s
  | literal _ | array _ | object _ => cases known

namespace Written

variable {written : Written}

/-- A scalar that is read is the value that was written. -/
theorem value_of_scalar? {value : Value} (known : written.json.scalar? = some value) :
    written.value = value := by
  cases written with
  | number number =>
    rw [json] at known
    obtain ⟨n, read, same⟩ | ⟨spelling, read⟩ := number.json_cases
    · rw [read] at known
      exact same.trans (Option.some.inj known)
    · rw [read] at known
      cases known
  | null | bool _ | text _ => exact Option.some.inj known
  | array _ _ | object _ _ => cases known

/-- An array is read from written items. -/
theorem eq_array {items : List Json} (read : written.json = .array items) :
    ∃ gap parts, written = .array gap parts ∧ parts.json = items := by
  cases written with
  | array gap parts => exact ⟨gap, parts, rfl, Json.array.inj read⟩
  | number number =>
    rw [json] at read
    obtain ⟨n, other, -⟩ | ⟨spelling, other⟩ := number.json_cases <;> cases other.symm.trans read
  | _ => cases read

/-- An object is read from written members. -/
theorem eq_object {members : List (String × Json)} (read : written.json = .object members) :
    ∃ gap parts, written = .object gap parts ∧ parts.json = members := by
  cases written with
  | object gap parts => exact ⟨gap, parts, rfl, Json.object.inj read⟩
  | number number =>
    rw [json] at read
    obtain ⟨n, other, -⟩ | ⟨spelling, other⟩ := number.json_cases <;> cases other.symm.trans read
  | _ => cases read

end Written
end Json

namespace Value

/-- Whether a key of a map becomes a name in JSON. -/
def isName : Value → Bool
  | .text _ | .halved _ | .null | .bool _ | .int _ => true
  | .float x => x.isFinite
  | _ => false

/-- Whether a value has no JSON text, whatever its parts are: a byte string, or a map with a key
that is no name. -/
def lacksJson : Value → Bool
  | .bytes _ => true
  | .map entries => entries.any fun entry => !entry.1.isName
  | _ => false

variable {value : Value} {items : List Value} {entries : List (Value × Value)}

section Steps

/-- The JSON of items is that of each, in order. -/
theorem itemsJson_eq_mapM (items : List Value) : itemsJson items = items.mapM toJson := by
  induction items with
  | nil => rfl
  | cons item rest ih =>
    rw [itemsJson, ih, List.mapM_cons]

/-- The member that an entry of a map becomes. -/
def memberJson (entry : Value × Value) : Outcome (String × Json) := do
  let name ← memberName entry.1
  return (name, ← toJson entry.2)

/-- The JSON of entries is that of each member, in order. -/
theorem entriesJson_eq_mapM (entries : List (Value × Value)) :
    entriesJson entries = entries.mapM memberJson := by
  induction entries with
  | nil => rfl
  | cons entry rest ih =>
    obtain ⟨key, value⟩ := entry
    rw [entriesJson, ih, List.mapM_cons, memberJson]
    cases memberName key with
    | error fault => rfl
    | ok name => cases toJson value <;> rfl

end Steps

section Success

/-- A key becomes a name if it is of the kinds that do. -/
theorem memberName_succeeds_iff {key : Value} (fits : key.integersFit = true) :
    Succeeds (memberName key) ↔ key.isName = true := by
  cases key with
  | int n =>
    rw [integersFit, decide_eq_true_iff] at fits
    exact iff_of_true (integerText_succeeds fits) rfl
  | float x =>
    rw [memberName, isName]
    split_ifs with finite
    · exact iff_of_true (succeeds_ok _) finite
    · exact iff_of_false (not_succeeds_error _) finite
  | null | bool _ | text _ | halved _ => exact iff_of_true (succeeds_ok _) rfl
  | _ => exact iff_of_false (not_succeeds_error _) Bool.false_ne_true

/-- A member has JSON if its key is a name and its value has JSON. -/
theorem memberJson_succeeds_iff {entry : Value × Value} :
    Succeeds (memberJson entry) ↔ Succeeds (memberName entry.1) ∧ Succeeds entry.2.toJson := by
  rw [memberJson, succeeds_bind_iff]
  simp only [succeeds_map_iff]
  exact ⟨fun ⟨name, named, written⟩ => ⟨⟨name, named⟩, written⟩,
    fun ⟨⟨name, named⟩, written⟩ => ⟨name, named, written⟩⟩

/-- Items have JSON if and only if each of them has. -/
theorem itemsJson_succeeds_iff :
    Succeeds (itemsJson items) ↔ ∀ item ∈ items, Succeeds item.toJson := by
  rw [itemsJson_eq_mapM, mapM_succeeds_iff]

/-- A value becomes a document if it does not lack one itself and its parts become documents. -/
theorem toJson_succeeds_iff_parts (fits : value.integersFit = true) : Succeeds value.toJson ↔
    value.lacksJson = false ∧ ∀ part ∈ value.parts, Succeeds part.toJson := by
  cases value with
  | int n =>
    rw [integersFit, decide_eq_true_iff] at fits
    exact iff_of_true (succeeds_map_iff.mpr (integerText_succeeds fits))
      ⟨rfl, List.forall_mem_nil _⟩
  | bytes data => exact iff_of_false (not_succeeds_error _) fun both => Bool.noConfusion both.1
  | list items | tuple items | set items =>
    exact succeeds_map_iff.trans (itemsJson_succeeds_iff.trans (and_iff_right rfl).symm)
  | map entries =>
    have names (entry : Value × Value) (member : entry ∈ entries) :
        Succeeds (memberName entry.1) ↔ entry.1.isName = true :=
      memberName_succeeds_iff (integersFitOf_iff.mp fits entry member).1
    have written : Succeeds (entriesJson entries) ↔
        ∀ entry ∈ entries, entry.1.isName = true ∧ Succeeds entry.2.toJson := by
      rw [entriesJson_eq_mapM, mapM_succeeds_iff]
      refine forall₂_congr fun entry member => ?_
      rw [memberJson_succeeds_iff, names entry member]
    have named : (map entries).lacksJson = false ↔ ∀ entry ∈ entries, entry.1.isName = true := by
      simp [lacksJson]
    have below : (∀ part ∈ (map entries).parts, Succeeds part.toJson) ↔
        ∀ entry ∈ entries, Succeeds entry.2.toJson :=
      List.forall_mem_map
    rw [named, below, ← forall₂_and]
    exact succeeds_map_iff.trans written
  | _ => exact iff_of_true (succeeds_ok _) ⟨rfl, List.forall_mem_nil _⟩

/-- A value becomes a document if nothing that stands in it lacks one. -/
theorem toJson_succeeds_iff (fits : value.integersFit = true) :
    Succeeds value.toJson ↔ ∀ part ∈ value.inside, part.lacksJson = false := by
  induction value using parts_induction with
  | whole value ih =>
    rw [toJson_succeeds_iff_parts fits, forall_mem_inside_iff]
    refine and_congr_right fun _ => forall₂_congr fun part member => ?_
    exact ih part member (integersFit_of_mem_parts fits member)

/-- A value has a JSON text if and only if no part of it lacks JSON. -/
theorem jsonText_succeeds_iff (fits : value.integersFit = true) :
    Succeeds value.jsonText ↔ ∀ part ∈ value.inside, part.lacksJson = false := by
  rw [jsonText, succeeds_map_iff, toJson_succeeds_iff fits]

end Success

section Exact

mutual

/-- A value as a reader of its JSON text knows it: what the format cannot spell is null, dates are
texts, tuples and sets are lists, and another character stands for a half of a surrogate pair. -/
def plain : Value → Value
  | .undefined => .null
  | .float x => if x.isFinite then .float x else .null
  | .date d => .text (String.ofList d.isoText)
  | .moment m => .text (String.ofList m.isoText)
  | .halved s => .text s.shown
  | .list items | .tuple items | .set items => .list (plainItems items)
  | .map entries => .map (plainEntries entries)
  | value => value

/-- The plain values of the items of a list. -/
def plainItems : List Value → List Value
  | [] => []
  | item :: rest => item.plain :: plainItems rest

/-- The entries of a map with their plain values. -/
def plainEntries : List (Value × Value) → List (Value × Value)
  | [] => []
  | (key, value) :: rest => (key, value.plain) :: plainEntries rest

end

/-- Whether a value, its parts aside, has a form in JSON that tells it from others: it is no finite
double, whose digits may be laid out in many ways, it is a text of characters if it is a text, and
if it is a map its keys are such texts. -/
def isExact : Value → Bool
  | .float x => !x.isFinite
  | .halved _ => false
  | .map entries => entries.all fun entry => entry.1.text?.isSome
  | _ => true

/-- No two entries of a map have the same key, as in every dictionary. -/
def HasDistinctKeys : Value → Prop
  | .map entries => (entries.map (·.1)).Pairwise (sameKey · · = false)
  | _ => True

instance : DecidablePred HasDistinctKeys
  | .map entries => inferInstanceAs (Decidable ((entries.map (·.1)).Pairwise (sameKey · · = false)))
  | .undefined | .null | .bool _ | .int _ | .float _ | .text _ | .halved _ | .bytes _ | .date _
  | .moment _ | .list _ | .tuple _ | .set _ => inferInstanceAs (Decidable True)

/-- What a value becomes: a document without parts, the literal of a number, or a document whose
parts its own parts become. -/
theorem toJson_cases {document : Json} (made : value.toJson = .ok document) :
    document.scalar? = some value.plain ∨
      (∃ x, value = .float x ∧ x.isFinite = true ∧ document = .literal x.plainText) ∨
      (∃ documents, value.plain = .list (plainItems value.parts) ∧ document = .array documents ∧
        itemsJson value.parts = .ok documents) ∨
      ∃ entries members, value = .map entries ∧ document = .object members ∧
        entriesJson entries = .ok members := by
  cases value with
  | int n =>
    obtain ⟨text, -, same⟩ := bind_eq_ok.mp made
    cases same
    exact .inl rfl
  | float x =>
    cases made
    split_ifs with finite
    · exact .inr (.inl ⟨x, rfl, finite, rfl⟩)
    · rw [plain, if_neg finite]
      exact .inl rfl
  | bytes data => cases made
  | list items | tuple items | set items =>
    obtain ⟨documents, taken, same⟩ := bind_eq_ok.mp made
    cases same
    exact .inr (.inr (.inl ⟨documents, rfl, rfl, taken⟩))
  | map entries =>
    obtain ⟨members, taken, same⟩ := bind_eq_ok.mp made
    cases same
    exact .inr (.inr (.inr ⟨entries, members, rfl, rfl, taken⟩))
  | _ =>
    cases made
    exact .inl rfl

/-- What a value becomes is written with each number and text in a form of the format. -/
theorem isWritten_of_toJson {document : Json}
    (exact : ∀ part ∈ value.inside, part.isExact = true) (made : value.toJson = .ok document) :
    document.IsWritten := by
  induction value using parts_induction generalizing document with
  | whole value ih =>
    obtain ⟨here, below⟩ := forall_mem_inside_iff.mp exact
    obtain scalar | ⟨x, rfl, finite, -⟩ | ⟨documents, -, rfl, taken⟩ |
      ⟨entries, members, rfl, rfl, taken⟩ := toJson_cases made
    · exact Json.isWritten_of_scalar? scalar
    · rw [isExact, finite] at here
      cases here
    · refine Json.isWritten_array fun part member => ?_
      rw [itemsJson_eq_mapM] at taken
      obtain ⟨item, listed, becomes⟩ := exists_of_mem_mapM taken member
      exact ih item listed (below item listed) becomes
    · refine Json.isWritten_object fun member inside => ?_
      rw [entriesJson_eq_mapM] at taken
      obtain ⟨entry, listed, becomes⟩ := exists_of_mem_mapM taken inside
      have part : entry.2 ∈ (Value.map entries).parts := List.mem_map_of_mem listed
      obtain ⟨name, -, written⟩ := bind_eq_ok.mp becomes
      obtain ⟨document, documentMade, same⟩ := bind_eq_ok.mp written
      cases same
      exact ih entry.2 part (below entry.2 part) documentMade

/-- Plain entries have the keys of the entries. -/
theorem plainEntries_keys (entries : List (Value × Value)) :
    (plainEntries entries).map (·.1) = entries.map (·.1) := by
  induction entries with
  | nil => rfl
  | cons entry rest ih => exact congrArg (entry.1 :: ·) ih

/-- Items that are read each as they are plainly are so together. -/
theorem values_of_itemsJson {parts : Json.WrittenItems}
    (each : ∀ item ∈ items, ∀ written : Json.Written, item.toJson = .ok written.json →
      written.value = item.plain)
    (made : itemsJson items = .ok parts.json) : parts.values = plainItems items := by
  induction items generalizing parts with
  | nil =>
    cases parts with
    | nil => rfl
    | cons => cases made
  | cons item rest ih =>
    rw [List.forall_mem_cons] at each
    obtain ⟨document, here, others⟩ := bind_eq_ok.mp made
    obtain ⟨documents, behind, same⟩ := bind_eq_ok.mp others
    cases parts with
    | nil => cases same
    | cons before written after more =>
      obtain ⟨rfl, rfl⟩ := List.cons.inj (Except.ok.inj same)
      rw [Json.WrittenItems.values, each.1 written here, ih each.2 behind, plainItems]

/-- The members written for entries have the keys and plain values of the entries. -/
theorem entries_of_entriesJson {parts : Json.WrittenMembers}
    (textual : ∀ entry ∈ entries, entry.1.text?.isSome = true)
    (each : ∀ entry ∈ entries, ∀ written : Json.Written, entry.2.toJson = .ok written.json →
      written.value = entry.2.plain)
    (made : entriesJson entries = .ok parts.json) : parts.entries = plainEntries entries := by
  induction entries generalizing parts with
  | nil =>
    cases parts with
    | nil => rfl
    | cons => cases made
  | cons entry rest ih =>
    obtain ⟨key, value⟩ := entry
    rw [List.forall_mem_cons] at textual each
    obtain ⟨name, rfl⟩ : ∃ name, key = .text name := by
      cases key with
      | text name => exact ⟨name, rfl⟩
      | _ => cases textual.1
    obtain ⟨_, named, later⟩ := bind_eq_ok.mp made
    cases named
    obtain ⟨document, here, others⟩ := bind_eq_ok.mp later
    obtain ⟨members, behind, same⟩ := bind_eq_ok.mp others
    cases parts with
    | nil => cases same
    | cons before pieces beforeColon afterColon written after more =>
      obtain ⟨first, rfl⟩ := List.cons.inj (Except.ok.inj same)
      obtain ⟨rfl, rfl⟩ := Prod.mk.inj first
      rw [Json.WrittenMembers.entries, each.1 written here, ih textual.2 each.2 behind,
        plainEntries]

/-- A text that is read as the document that a value becomes has that value. -/
theorem value_of_toJson {written : Json.Written}
    (exact : ∀ part ∈ value.inside, part.isExact = true ∧ part.HasDistinctKeys)
    (made : value.toJson = .ok written.json) : written.value = value.plain := by
  induction value using parts_induction generalizing written with
  | whole value ih =>
    obtain ⟨⟨here, distinct⟩, below⟩ := forall_mem_inside_iff.mp exact
    obtain scalar | ⟨x, rfl, finite, -⟩ | ⟨documents, list, array, taken⟩ |
      ⟨entries, members, rfl, object, taken⟩ := toJson_cases made
    · exact Json.Written.value_of_scalar? scalar
    · rw [isExact, finite] at here
      cases here
    · obtain ⟨gap, items, rfl, rfl⟩ := Json.Written.eq_array array
      have read : items.values = plainItems value.parts :=
        values_of_itemsJson (fun item listed written => ih item listed (below item listed)) taken
      rw [Json.Written.value, list, read]
    · obtain ⟨gap, parts, rfl, rfl⟩ := Json.Written.eq_object object
      have read : parts.entries = plainEntries entries := by
        refine entries_of_entriesJson (List.all_eq_true.mp here)
          (fun entry listed written => ?_) taken
        have part : entry.2 ∈ (Value.map entries).parts := List.mem_map_of_mem listed
        exact ih entry.2 part (below entry.2 part)
      -- no name is given twice, so setting the entries in order keeps them as they stand
      rw [Json.Written.value, plain, read]
      apply ofEntries_eq_map
      rw [plainEntries_keys]
      exact distinct

/-- The JSON text of a value that the format has forms for is a document with that value alone. -/
theorem denotes_of_jsonText {text : String}
    (exact : ∀ part ∈ value.inside, part.isExact = true ∧ part.HasDistinctKeys)
    (written : value.jsonText = .ok text) : Json.Denotes text value.plain := by
  obtain ⟨json, made, same⟩ := bind_eq_ok.mp written
  cases same
  obtain ⟨given, alone⟩ :=
    Json.exists_document (isWritten_of_toJson (fun part member => (exact part member).1) made)
  refine ⟨given, fun document rendered => value_of_toJson exact ?_⟩
  rw [alone document rendered]
  exact made

end Exact

end Value
end Stencil
