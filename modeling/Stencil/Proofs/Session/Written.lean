import Stencil.Proofs.Json.Nodes
import Stencil.Proofs.Session.History

/-!
# Snapshots as objects and as texts

A snapshot may be given as an object or as a text that is read as a document of the YAML format. A
JSON text that is portable loads as the object that it denotes does; a text that is not portable
need not, and does not if all that it lacks is the form of a number
(`Session.loadSnapshot_document`).
-/

namespace Stencil

open Outcome Json

namespace Json

mutual

/-- The keys of a value that a text denotes are texts. -/
theorem hasTextKeys_written (written : Written) : written.value.HasTextKeys := by
  refine Value.hasTextKeys_iff_parts.mpr ?_
  cases written with
  | number number =>
    rw [Written.value, Number.value]
    split <;> exact ⟨nofun, nofun⟩
  | array gap items => exact ⟨nofun, hasTextKeys_items items⟩
  | object gap members =>
    have each := @Value.forall_mem_foldl_setEntry (∃ name, · = .text name) Value.HasTextKeys [] _
      nofun (hasTextKeys_members members)
    refine ⟨?_, List.forall_mem_map.mpr fun entry member => (each entry member).2⟩
    rintro _ ⟨⟩ entry member
    exact (each entry member).1
  | _ => exact ⟨nofun, nofun⟩

/-- The items of a written array have keys of characters. -/
theorem hasTextKeys_items (items : WrittenItems) : ∀ item ∈ items.values, item.HasTextKeys := by
  cases items with
  | nil => exact nofun
  | cons before item after others =>
    exact List.forall_mem_cons.mpr ⟨hasTextKeys_written item, hasTextKeys_items others⟩

/-- The members of a written object have keys of characters. -/
theorem hasTextKeys_members (members : WrittenMembers) :
    ∀ entry ∈ members.entries, (∃ name, entry.1 = .text name) ∧ entry.2.HasTextKeys := by
  cases members with
  | nil => exact nofun
  | cons before name beforeColon afterColon item after others =>
    exact List.forall_mem_cons.mpr
      ⟨⟨⟨_, rfl⟩, hasTextKeys_written item⟩, hasTextKeys_members others⟩

end

/-- A text in quotes whose characters stand as they are. -/
def plainPieces (text : String) : List Piece :=
  text.toList.filterMap fun c =>
    if free : 0x20 ≤ c.toNat ∧ c ≠ '"' ∧ c ≠ '\\' then some (.bare c free) else none

/-- A snapshot with one variable, which is a number, without blanks. -/
def numberDocument (number : Number) : Document :=
  let noBlank : Blank := ⟨[], nofun⟩
  let vars := WrittenMembers.cons noBlank (plainPieces "x") noBlank noBlank (.number number) noBlank
    .nil
  ⟨noBlank, .object noBlank (.cons noBlank (plainPieces "variables") noBlank noBlank
    (.object noBlank vars) noBlank .nil), noBlank⟩

end Json

namespace Session

variable {document : Document} {snapshot : Snapshot}

/-- A snapshot is an object. -/
theorem exists_entries_of_ofValue {value : Value} (valid : Snapshot.ofValue value = .ok snapshot) :
    ∃ entries, value = .map entries ∧ Snapshot.check entries = .ok snapshot := by
  cases value with
  | map entries => exact ⟨entries, rfl, Checked.outcome_eq_ok.mp valid⟩
  | _ => cases valid

/-- What is written and has entries is a collection. -/
theorem isCollection_of_map {written : Written} {entries : List (Value × Value)}
    (map : written.value = .map entries) : written.isCollection = true := by
  cases written with
  | array gap items => rfl
  | object gap members => rfl
  | number number =>
    rw [Written.value, Number.value] at map
    split at map <;> cases map
  | _ => cases map

/-- A snapshot whose entries can be named is loaded with success. -/
theorem loadSnapshot_of_requested (session : Session) {given : Value}
    (requested : requestedSnapshot given = .ok (.ok snapshot)) (labelled : snapshot.Labelled) :
    session.loadSnapshot given =
      (.ok (successValue (("total", .int (session.catalog.loadSnapshot snapshot).2.size)
        :: ("steps", .ofTexts (Fields.keys
          (session.catalog.loadSnapshot snapshot).2.context.stepOutputs))
        :: [("variables", .ofTexts
          ((session.catalog.loadSnapshot snapshot).2.all.map (·.path)))])),
        session.withCatalog (session.catalog.loadSnapshot snapshot).2) := by
  obtain ⟨built, made⟩ := Snapshot.definitions_succeed_iff.mpr labelled
  have ends : (session.catalog.loadSnapshot snapshot).1 = .ok () := by
    rw [Catalog.loadSnapshot, made]
  rw [loadSnapshot, requested]
  dsimp only
  rw [ends]
  rfl

/-- The text and the object of a portable document that is a snapshot are loaded alike. -/
theorem loadSnapshot_of_portable (session : Session) (portable : document.isPortable = true)
    (valid : Snapshot.ofValue document.root.value = .ok snapshot) :
    ∃ further after,
      session.loadSnapshot (.text document.text) = (.ok (successValue further), after) ∧
        session.loadSnapshot document.root.value = (.ok (successValue further), after) := by
  obtain ⟨entries, map, accepted⟩ := exists_entries_of_ofValue valid
  have named := hasTextKeys_written document.root
  have read := Document.read_text portable (isCollection_of_map map)
  rw [map] at named read ⊢
  have labelled := Snapshot.labelled_of_check named accepted
  exact ⟨_, _, loadSnapshot_of_requested session (requestedSnapshot_text read accepted) labelled,
    loadSnapshot_of_requested session (requestedSnapshot_map accepted) labelled⟩

/-- The object of a snapshot with one number. -/
theorem value_numberDocument (number : Number) : (numberDocument number).root.value =
    .map [(.text "variables", .map [(.text "x", number.value)])] :=
  rfl

/-- The text of a snapshot with one number is read as what the number is read as. -/
theorem read_numberDocument (number : Number) : Yaml.read (numberDocument number).text =
    match Yaml.Scalar.value (.ofPlainText (String.ofList number.chars))
      (String.ofList number.chars) with
    | .ok value => .ok (.map [(.text "variables", .map [(.text "x", value)])])
    | .error fault => .error fault := by
  have node : (numberDocument number).root.node = .mapping .mapping [(.scalar .text "variables",
      .mapping .mapping [(.scalar .text "x", .scalar (.ofPlainText (String.ofList number.chars))
        (String.ofList number.chars))])] := rfl
  rw [Document.read_node rfl rfl, node]
  simp only [Yaml.Node.value, Yaml.Node.setEntries, Yaml.Node.merged, Yaml.Node.own,
    Yaml.Tag.isCollection_ofPlainText]
  cases Yaml.Scalar.value (.ofPlainText (String.ofList number.chars))
    (String.ofList number.chars) <;> rfl

/-- The text of a snapshot with a number that is not portable is not loaded as the object is. -/
theorem loadSnapshot_ne_of_not_portable (session : Session) {number : Number}
    (other : ¬number.isPortable = true) :
    session.loadSnapshot (.text (numberDocument number).text) ≠
      session.loadSnapshot (numberDocument number).root.value := by
  have labelled (value : Value) : (Snapshot.mk [("x", value)] [] []).Labelled := by
    intro stepId entries last
    cases last
  rw [value_numberDocument, loadSnapshot_of_requested session (requestedSnapshot_map rfl)
    (labelled number.value)]
  have read := read_numberDocument number
  rcases Yaml.Scalar.value_number_of_not_portable other with long | text
  · rw [long] at read
    rw [loadSnapshot, requestedSnapshot, Load.ofText, read]
    intro same
    cases congrArg Prod.fst same
  · rw [text] at read
    rw [loadSnapshot_of_requested session (requestedSnapshot_text read rfl) (labelled _)]
    intro same
    have vars := congrArg (·.2.catalog.context.vars) same
    obtain ⟨-, value⟩ := Prod.mk.inj (List.cons.inj vars).1
    rw [Number.value] at value
    split at value <;> cases value

/-- **A snapshot means the same as a portable text and as an object.** A portable JSON text and the
object that it denotes, a snapshot, are both loaded with success, with the same answer and into the
same session. Of numbers no others will do: a snapshot with a number that is not portable is loaded
otherwise from its text. -/
theorem loadSnapshot_document (session : Session) :
    (∀ (document : Document) (snapshot : Snapshot), document.isPortable = true →
      Snapshot.ofValue document.root.value = .ok snapshot →
      ∃ further after,
        session.loadSnapshot (.text document.text) = (.ok (successValue further), after) ∧
          session.loadSnapshot document.root.value = (.ok (successValue further), after)) ∧
    ∀ number : Number, session.loadSnapshot (.text (numberDocument number).text) =
      session.loadSnapshot (numberDocument number).root.value ↔ number.isPortable = true := by
  refine ⟨fun document snapshot => session.loadSnapshot_of_portable, fun number => ⟨fun alike => ?_,
    fun portable => ?_⟩⟩
  · by_contra other
    exact session.loadSnapshot_ne_of_not_portable other alike
  · have document : (numberDocument number).isPortable = true := by
      simp only [numberDocument, Document.isPortable, Written.isPortable,
        WrittenMembers.isPortable, portable]
      rfl
    obtain ⟨further, after, text, object⟩ := session.loadSnapshot_of_portable document rfl
    rw [text, object]

/-- The number 1.0e+5 is loaded alike. -/
theorem loadSnapshot_document_signed :
    ∃ number : Number, number.chars = "1.0e+5".toList ∧ (numberDocument number).isPortable = true ∧
      Snapshot.ofValue (numberDocument number).root.value =
        .ok ⟨[("x", number.value)], [], []⟩ ∧
      ∃ further after,
        (fresh (Settings.ofEnvironment []).resolver).loadSnapshot
          (.text (numberDocument number).text) = (.ok (successValue further), after) ∧
        (fresh (Settings.ofEnvironment []).resolver).loadSnapshot
          (numberDocument number).root.value = (.ok (successValue further), after) := by
  let number : Number := ⟨false, ['1'], ['0'], some ⟨'e', ['+'], ['5'], .inl rfl, .inr (.inl rfl),
    nofun, List.forall_mem_singleton.mpr rfl⟩, nofun, List.forall_mem_singleton.mpr rfl, by decide,
    List.forall_mem_singleton.mpr rfl⟩
  have portable : (numberDocument number).isPortable = true := by decide +kernel
  have valid : Snapshot.ofValue (numberDocument number).root.value =
      .ok ⟨[("x", number.value)], [], []⟩ := rfl
  exact ⟨number, rfl, portable, valid, (loadSnapshot_document _).1 _ _ portable valid⟩

/-- The text of a snapshot with the number 1e5 is read as one with a text. -/
theorem read_exponent : Yaml.read "\x7b\"variables\":\x7b\"x\":1e5\x7d\x7d" =
    .ok (.map [(.text "variables", .map [(.text "x", .text "1e5")])]) := by
  have tokens : Yaml.Token.ofText "\x7b\"variables\":\x7b\"x\":1e5\x7d\x7d".toList =
      [.flowMappingStart, .key, .scalar "variables" false, .value, .flowMappingStart, .key,
        .scalar "x" false, .value, .scalar "1e5" true, .flowMappingEnd, .flowMappingEnd,
        .streamEnd] := by
    decide +kernel
  have form : Yaml.Tag.ofPlainText "1e5" = .text := by decide +kernel
  have node : Yaml.Node.ofTokens [.flowMappingStart, .key, .scalar "variables" false, .value,
      .flowMappingStart, .key, .scalar "x" false, .value, .scalar "1e5" true, .flowMappingEnd,
      .flowMappingEnd, .streamEnd] = .ok (some (.mapping .mapping [(.scalar .text "variables",
        .mapping .mapping [(.scalar .text "x", .scalar (.ofPlainText "1e5") "1e5")])])) := rfl
  rw [Yaml.read, tokens, node, form]
  simp only [ok_bind, Yaml.Node.value, Yaml.Node.setEntries, Yaml.Node.merged, Yaml.Node.own]
  rfl

/-- The number 1e5, as valid as any, is loaded as a text if it stands in a text. -/
theorem loadSnapshot_exponent :
    ∃ number : Number, (numberDocument number).text = "\x7b\"variables\":\x7b\"x\":1e5\x7d\x7d" ∧
      Snapshot.ofValue (numberDocument number).root.value =
        .ok ⟨[("x", number.value)], [], []⟩ ∧
      number.value = .float (Binary64.ofDecimal false 100000 0) ∧
      ((fresh (Settings.ofEnvironment []).resolver).loadSnapshot
          (numberDocument number).root.value).2.catalog.context.vars = [("x", number.value)] ∧
      ((fresh (Settings.ofEnvironment []).resolver).loadSnapshot
          (.text (numberDocument number).text)).2.catalog.context.vars = [("x", .text "1e5")] := by
  let number : Number := ⟨false, ['1'], [], some ⟨'e', [], ['5'], .inl rfl, .inl rfl, nofun,
    List.forall_mem_singleton.mpr rfl⟩, nofun, List.forall_mem_singleton.mpr rfl, by decide, nofun⟩
  have text : (numberDocument number).text = "\x7b\"variables\":\x7b\"x\":1e5\x7d\x7d" := by
    decide +kernel
  have read : requestedSnapshot (.text (numberDocument number).text) =
      .ok (.ok ⟨[("x", .text "1e5")], [], []⟩) := by
    rw [text]
    exact requestedSnapshot_text read_exponent rfl
  refine ⟨number, text, rfl, ?_, rfl, ?_⟩
  · exact congrArg Value.float (by decide +kernel)
  · rw [loadSnapshot, read]
    rfl

end Session
end Stencil
