import Stencil.Proofs.Workflow.Snapshot
import Stencil.Session

/-!
# Loads of a session

A request to load gives a workflow or a snapshot, or nothing, whatever the state of the session
(`Session.Call.read?`). What it gives is all that a call changes: the session afterwards has the
catalog with it (`Session.after_eq`). A load is answered with success exactly if it gives something
whose entries can be named (`Session.saysSuccess_iff`). If they cannot, the definitions stay, but
the context of a snapshot is taken all the same.
-/

namespace Stencil

open Outcome

namespace Load

variable {α : Type} {kind : DocumentKind α} {content source : String} {load : Load α} {data : α}

/-- A failed load has no value. -/
theorem value?_of_failure {error : String} {metadata : Fields Value}
    (made : failure error metadata = .ok load) : load.value? = none := by
  rw [value?, isSuccess_of_failure made]
  rfl

/-- The data of a document are what its schema makes of the entries that are read from it. -/
theorem exists_entries_of_ofText (read : ofText kind content source = .ok load)
    (valued : load.value? = some data) :
    ∃ entries, Yaml.read content = .ok (.map entries) ∧ kind.check entries = .ok data := by
  rw [ofText] at read
  split at read
  · rename_i value parsed
    rw [ofValue.eq_def] at read
    split at read
    · rename_i entries
      split at read
      · rename_i checked
        cases read
        cases valued
        exact ⟨entries, parsed, checked⟩
      · cases (value?_of_failure read).symm.trans valued
    · cases (value?_of_failure read).symm.trans valued
  · cases (value?_of_failure read).symm.trans valued
  · cases read

end Load

/-- What a request to load gives. -/
inductive Loaded
  | workflow (workflow : Workflow)
  | snapshot (snapshot : Snapshot)

namespace Loaded

/-- The catalog after what was read is loaded into it. -/
def into (catalog : Catalog) : Loaded → Catalog
  | .workflow data => (catalog.loadWorkflow data).toOption.getD catalog
  | .snapshot data => (catalog.loadSnapshot data).2

/-- The definitions that a load builds. -/
def definitions (loaded : Loaded) : Fields Definition :=
  (loaded.into .empty).definitions

/-- Whether all entries of what was read can be named, so that a load of it has definitions. -/
def isNamed : Loaded → Bool
  | .workflow data => data.isNamed
  | .snapshot data => data.definitions.isOk

/-- The snapshot that was read, if it is one. -/
def snapshot? : Loaded → Option Snapshot
  | .workflow _ => none
  | .snapshot data => some data

/-- A load builds its definitions whatever the catalog, or it has none and those of the catalog
stay. -/
theorem definitions_into (loaded : Loaded) (catalog : Catalog) :
    (loaded.into catalog).definitions =
      if loaded.isNamed then loaded.definitions else catalog.definitions := by
  cases loaded with
  | workflow data =>
    rw [definitions, into, into, Catalog.loadWorkflow, Catalog.loadWorkflow, isNamed]
    split <;> rfl
  | snapshot data =>
    rw [definitions, into, into, Catalog.loadSnapshot, Catalog.loadSnapshot, isNamed]
    cases data.definitions <;> rfl

/-- Loading a workflow leaves the context. -/
theorem context_into_workflow (data : Workflow) (catalog : Catalog) :
    ((Loaded.workflow data).into catalog).context = catalog.context := by
  rw [into, Catalog.loadWorkflow]
  split <;> rfl

/-- Loading a snapshot makes its context that of the catalog. -/
theorem context_into_snapshot (data : Snapshot) (catalog : Catalog) :
    ((Loaded.snapshot data).into catalog).context = data.context := by
  rw [into, Catalog.loadSnapshot]
  split <;> rfl

/-- What cannot be named changes a catalog if it is a snapshot with another context. -/
theorem into_eq_self_iff {loaded : Loaded} (nameless : loaded.isNamed = false)
    (catalog : Catalog) : loaded.into catalog = catalog ↔
      ∀ snapshot ∈ loaded.snapshot?, snapshot.context = catalog.context := by
  constructor
  · rintro same snapshot taken
    cases loaded with
    | workflow data => cases taken
    | snapshot data =>
      obtain rfl : data = snapshot := Option.some.inj taken
      rw [← context_into_snapshot data catalog, same]
  · intro each
    have definitions := definitions_into loaded catalog
    rw [nameless, if_neg nofun] at definitions
    have context : (loaded.into catalog).context = catalog.context := by
      cases loaded with
      | workflow data => exact context_into_workflow data catalog
      | snapshot data => exact (context_into_snapshot data catalog).trans (each data rfl)
    exact congr (congrArg Catalog.mk definitions) context

end Loaded

namespace Session

/-- A request, and the files that there are when it is made. -/
structure Call where
  files : String → File
  request : Request

namespace Call

/-- Whether a call is one of the two kinds that load. -/
def isLoad (call : Call) : Bool :=
  match call.request with
  | .loadWorkflow .. | .loadSnapshot _ => true
  | _ => false

/-- What a call to load reads, if the document is a valid one. -/
def read? (call : Call) : Option Loaded :=
  match call.request with
  | .loadWorkflow content path =>
    match requestedWorkflow call.files content path with
    | .ok (some load) => load.value?.map .workflow
    | _ => none
  | .loadSnapshot snapshot =>
    match requestedSnapshot snapshot with
    | .ok (.ok snapshot) => some (.snapshot snapshot)
    | _ => none
  | _ => none

/-- What a call loads: what it reads, if that can be named. -/
def loaded? (call : Call) : Option Loaded :=
  call.read?.filter Loaded.isNamed

/-- Whether no integer in the snapshot of a call is too long to be written. -/
def IntegersFit (call : Call) : Prop :=
  match call.request with
  | .loadSnapshot (.text content) =>
    ∀ value, Yaml.read content = .ok value → value.integersFit = true
  | .loadSnapshot snapshot => snapshot.integersFit = true
  | _ => True

end Call

/-- A request to load a snapshot ends with a fault, with a failure or with a snapshot, which is then
what its schema makes of the given entries. -/
theorem requestedSnapshot_cases (given : Value) :
    (∃ fault, requestedSnapshot given = .error fault) ∨
      (∃ error, requestedSnapshot given = .ok (.error (failureValue error []))) ∨
      ∃ snapshot entries, requestedSnapshot given = .ok (.ok snapshot) ∧
        Snapshot.check entries = .ok snapshot ∧
        ∀ files, (Call.mk files (.loadSnapshot given)).IntegersFit →
          Value.integersFitOf entries = true := by
  cases given with
  | text content =>
    rw [requestedSnapshot]
    cases read : Load.ofText .snapshot content "<snapshot>" with
    | error fault => exact .inl ⟨fault, rfl⟩
    | ok load =>
      rw [ok_bind]
      cases valued : load.value? with
      | none => exact .inr (.inl ⟨_, rfl⟩)
      | some data =>
        obtain ⟨entries, parsed, checked⟩ := Load.exists_entries_of_ofText read valued
        exact .inr (.inr ⟨data, entries, rfl, checked, fun _ fit => fit _ parsed⟩)
  | halved s => exact .inr (.inl ⟨_, rfl⟩)
  | _ =>
    unfold requestedSnapshot
    dsimp only
    split
    · rename_i read
      obtain ⟨entries, listed, accepted⟩ := bind_eq_ok.mp read
      exact .inr (.inr ⟨_, entries, rfl, Checked.outcome_eq_ok.mp accepted, fun _ fit =>
        Value.integersFit_of_entries fit listed⟩)
    · exact .inr (.inl ⟨_, rfl⟩)
    · exact .inl ⟨_, rfl⟩

/-- A requested snapshot is the document of some entries. -/
theorem exists_entries_of_requestedSnapshot {given : Value} {snapshot : Snapshot}
    (requested : requestedSnapshot given = .ok (.ok snapshot)) :
    ∃ entries, Snapshot.check entries = .ok snapshot ∧
      ∀ files, (Call.mk files (.loadSnapshot given)).IntegersFit →
        Value.integersFitOf entries = true := by
  obtain ⟨_, other⟩ | ⟨_, other⟩ | ⟨_, entries, same, accepted⟩ := requestedSnapshot_cases given
  · cases requested.symm.trans other
  · cases requested.symm.trans other
  · cases requested.symm.trans same
    exact ⟨entries, accepted⟩

/-- What is given as an object is taken as it is. -/
theorem requestedSnapshot_map {entries : List (Value × Value)} {snapshot : Snapshot}
    (accepted : Snapshot.check entries = .ok snapshot) :
    requestedSnapshot (.map entries) = .ok (.ok snapshot) := by
  have read : Snapshot.ofItems (.map entries) = .ok snapshot := by
    rw [Snapshot.ofItems]
    exact Checked.outcome_eq_ok.mpr accepted
  unfold requestedSnapshot
  dsimp only
  rw [read]

/-- What is given as a text is what is read from it. -/
theorem requestedSnapshot_text {content : String} {entries : List (Value × Value)}
    {snapshot : Snapshot}
    (read : Yaml.read content = .ok (.map entries))
    (accepted : Snapshot.check entries = .ok snapshot) :
    requestedSnapshot (.text content) = .ok (.ok snapshot) := by
  have loaded : Load.ofText .snapshot content "<snapshot>" =
      .ok (.success snapshot [("source", .text "<snapshot>")]) := by
    have checked : DocumentKind.snapshot.check entries = .ok snapshot := accepted
    rw [Load.ofText, read]
    simp only [Load.ofValue, checked]
  rw [requestedSnapshot, loaded]
  rfl

/-- A call that reads a snapshot requests it. -/
theorem requestedSnapshot_of_read? {call : Call} {snapshot : Snapshot}
    (reads : call.read? = some (.snapshot snapshot)) :
    ∃ given, call.request = .loadSnapshot given ∧
      requestedSnapshot given = .ok (.ok snapshot) := by
  rw [Call.read?.eq_def] at reads
  split at reads
  · split at reads
    · obtain ⟨data, -, impossible⟩ := Option.map_eq_some_iff.mp reads
      cases impossible
    · cases reads
  · rename_i given request
    split at reads
    · rename_i found
      cases reads
      exact ⟨given, request, found⟩
    · cases reads
  · cases reads

/-- The integers of a snapshot that a call reads fit where those of the call do. -/
theorem Call.IntegersFit.read {call : Call} {snapshot : Snapshot} (fit : call.IntegersFit)
    (reads : call.read? = some (.snapshot snapshot)) : snapshot.IntegersFit := by
  obtain ⟨given, request, requested⟩ := requestedSnapshot_of_read? reads
  obtain ⟨entries, accepted, fits⟩ := exists_entries_of_requestedSnapshot requested
  obtain ⟨files, _⟩ := call
  cases request
  exact Snapshot.integersFit_of_check (fits files fit) accepted

/-- A snapshot that is read is not loaded exactly if a key of an output is no text of
characters. -/
theorem loaded?_eq_none_iff {call : Call} {snapshot : Snapshot} (fit : call.IntegersFit)
    (reads : call.read? = some (.snapshot snapshot)) :
    call.loaded? = none ↔ snapshot.HasHalvedKey := by
  have named : (Loaded.snapshot snapshot).isNamed = true ↔ ¬ snapshot.HasHalvedKey :=
    isOk_iff.trans (Snapshot.definitions_succeed_iff.trans (Snapshot.labelled_iff (fit.read reads)))
  rw [Call.loaded?, reads, Option.filter_some, ite_eq_right_iff]
  simp only [reduceCtorEq, imp_false]
  rw [named, not_not]

/-- A snapshot that is read has distinct names. -/
theorem hasDistinctKeys_of_read? {call : Call} {snapshot : Snapshot}
    (reads : call.read? = some (.snapshot snapshot)) : snapshot.HasDistinctKeys := by
  obtain ⟨given, -, requested⟩ := requestedSnapshot_of_read? reads
  obtain ⟨entries, accepted, -⟩ := exists_entries_of_requestedSnapshot requested
  exact Snapshot.hasDistinctKeys_of_check accepted

/-- The answer to a call. -/
def reply (session : Session) (call : Call) : Outcome Value :=
  (session.answer call.files call.request).1

/-- The session after a call. -/
def after (session : Session) (call : Call) : Session :=
  (session.answer call.files call.request).2

/-- Whether an answer has the status of a success. -/
def saysSuccess (answer : Outcome Value) : Bool :=
  match answer with
  | .ok (.map entries) => (Value.lookupText "status" entries).any fun status =>
    status.text? == some "success"
  | _ => false

/-- A failure does not say success. -/
theorem saysSuccess_failureValue (error : String) (further : Fields Value) :
    saysSuccess (.ok (failureValue error further)) = false :=
  rfl

/-- A request that gives no snapshot is answered with a failure. -/
theorem failure_of_requestedSnapshot {given answer : Value}
    (requested : requestedSnapshot given = .ok (.error answer)) :
    ∃ error, answer = failureValue error [] := by
  obtain ⟨_, other⟩ | ⟨error, same⟩ | ⟨_, _, other, -⟩ := requestedSnapshot_cases given
  · cases requested.symm.trans other
  · cases requested.symm.trans same
    exact ⟨error, rfl⟩
  · cases requested.symm.trans other

/-- The answer to a load says success exactly if the load did not fail. -/
theorem saysSuccess_answerOfLoaded {result : Outcome Unit} {catalog : Catalog} :
    saysSuccess (answerOfLoaded result catalog) = result.isOk := by
  unfold answerOfLoaded
  split
  · rfl
  · rfl
  · rfl

/-- A call reads nothing, and then it changes nothing and is no successful load, or it changes what
it reads, and is successful if that can be named. -/
theorem call_cases (session : Session) (call : Call) :
    (call.read? = none ∧ session.after call = session ∧
      (call.isLoad = true → saysSuccess (session.reply call) = false)) ∨
    ∃ loaded, call.read? = some loaded ∧ call.isLoad = true ∧
      session.after call = session.withCatalog (loaded.into session.catalog) ∧
      saysSuccess (session.reply call) = loaded.isNamed := by
  obtain ⟨files, request⟩ := call
  cases request with
  | loadWorkflow content path =>
    simp only [reply, after, answer, loadWorkflow, Call.read?]
    cases requested : requestedWorkflow files content path with
    | error fault => exact .inl ⟨rfl, rfl, fun _ => rfl⟩
    | ok found =>
      cases found with
      | none => exact .inl ⟨rfl, rfl, fun _ => rfl⟩
      | some load =>
        cases valued : load.value? with
        | none => exact .inl (by simp [valued, saysSuccess_failureValue])
        | some data =>
          refine .inr ⟨.workflow data, by simp only [valued, Option.map_some], rfl, ?_⟩
          simp only [valued, Loaded.into, Loaded.isNamed, Catalog.loadWorkflow]
          cases data.isNamed <;> exact ⟨rfl, rfl⟩
  | loadSnapshot given =>
    simp only [reply, after, answer, loadSnapshot, Call.read?]
    cases requested : requestedSnapshot given with
    | error fault => exact .inl ⟨rfl, rfl, fun _ => rfl⟩
    | ok found =>
      cases found with
      | error answer =>
        obtain ⟨error, rfl⟩ := failure_of_requestedSnapshot requested
        exact .inl ⟨rfl, rfl, fun _ => rfl⟩
      | ok data =>
        refine .inr ⟨.snapshot data, rfl, rfl, rfl, saysSuccess_answerOfLoaded.trans ?_⟩
        rw [Catalog.loadSnapshot, Loaded.isNamed]
        cases data.definitions <;> rfl
  | _ => exact .inl ⟨rfl, rfl, nofun⟩

/-- What a call reads is all that it changes. -/
theorem after_eq (session : Session) (call : Call) :
    session.after call = call.read?.elim session fun loaded =>
      session.withCatalog (loaded.into session.catalog) := by
  rcases session.call_cases call with ⟨none, same, -⟩ | ⟨loaded, some, -, changed, -⟩
  · rw [none, same]
    rfl
  · rw [some, changed]
    rfl

/-- **When a load is answered with success:** if it gives something that can be named. -/
theorem saysSuccess_iff (session : Session) (call : Call) :
    (call.isLoad = true ∧ saysSuccess (session.reply call) = true) ↔
      call.loaded?.isSome = true := by
  rw [Call.loaded?]
  rcases session.call_cases call with ⟨none, -, failed⟩ | ⟨loaded, some, load, -, succeeded⟩
  · rw [none]
    refine ⟨fun both => ?_, nofun⟩
    rw [failed both.1] at both
    cases both.2
  · rw [some, succeeded, Option.filter_some]
    cases loaded.isNamed with
    | false => exact iff_of_false (fun both => Bool.false_ne_true both.2) nofun
    | true => exact ⟨fun _ => rfl, fun _ => ⟨load, rfl⟩⟩

end Session
end Stencil
