import Mathlib.Data.List.Induction
import Stencil.Proofs.Session.Loads

/-!
# What a session remembers

However many calls a session has answered, its catalog holds the definitions of the last load that
succeeded and the context of the last snapshot that was read. Until the next snapshot, requests
without a context are answered as if the values of that one were given with them. It is the last
snapshot that was *loaded* unless a later one was refused for its keys, and refused it has left its
context behind (`Session.run_recalls_iff`).
-/

namespace Stencil

open Outcome

namespace Snapshot

/-- The values of a snapshot as a request gives them. -/
def explicit (snapshot : Snapshot) : Value :=
  .map [(.text "variables", .ofFields snapshot.vars),
    (.text "globalVariables", .ofFields snapshot.globals),
    (.text "stepOutputs", .ofFields snapshot.outputs)]

/-- The values of a snapshot that are given with a request are its context. -/
theorem ofValue_explicit {snapshot : Snapshot} (distinct : snapshot.HasDistinctKeys) :
    Context.ofValue snapshot.explicit = .ok snapshot.context := by
  have outputs := Schema.fields_any_ofFields (Fields.nodup_keys_ofEntries
    ((snapshot.steps.filter (!·.output.isNull)).map fun record => (record.stepId, record.output)))
  refine Checked.outcome_eq_ok.mpr ?_
  refine Checked.and_eq_ok.mpr ⟨_, _, Checked.and_eq_ok.mpr ⟨_, _, Checked.and_eq_ok.mpr
    ⟨_, _, rfl, ?_, rfl⟩, ?_, rfl⟩, ?_, rfl⟩
  · exact Schema.optional_of_findName rfl (Schema.fields_any_ofFields distinct.globals)
  · exact Schema.optional_of_findName rfl (Schema.fields_any_ofFields distinct.vars)
  · exact Schema.optional_of_findName rfl outputs

end Snapshot

namespace Session

/-- A session that has answered nothing yet. -/
def fresh (resolver : Resolver) : Session :=
  ⟨resolver, .empty⟩

/-- The session after several calls in a row. -/
def run (session : Session) (calls : List Call) : Session :=
  calls.foldl after session

/-- What calls read, in order. -/
def reads (calls : List Call) : List Loaded :=
  calls.filterMap Call.read?

/-- What calls load, in order. -/
def loads (calls : List Call) : List Loaded :=
  calls.filterMap Call.loaded?

/-- The context of the last snapshot of some loads. -/
def lastContext (loads : List Loaded) : Context :=
  ((loads.filterMap Loaded.snapshot?).getLast?.map Snapshot.context).getD .empty

/-- Whether reading requests without a context are answered as those with a given one. -/
structure ReadsAs (session : Session) (context : Value) : Prop where
  resolve : ∀ files template policy, session.answer files (.resolveTemplate template none policy) =
    session.answer files (.resolveTemplate template (some context) policy)
  preview : ∀ files template form, session.answer files (.previewTemplate template none form) =
    session.answer files (.previewTemplate template (some context) form)
  paths : ∀ files, session.answer files (.listPaths none) =
    session.answer files (.listPaths (some context))

/-- What a session has kept of calls: the definitions of the last load, and the context of the last
snapshot among those that count. -/
structure Recalls (session : Session) (resolver : Resolver) (calls : List Call)
    (counting : List Loaded) : Prop where
  resolver : session.resolver = resolver
  context : session.catalog.context = lastContext counting
  definitions : session.catalog.definitions =
    ((loads calls).getLast?.map Loaded.definitions).getD []
  explicit : ∀ snapshot, (counting.filterMap Loaded.snapshot?).getLast? = some snapshot →
    session.ReadsAs snapshot.explicit ∧
      ∀ stepId, Fields.get? snapshot.outputs stepId = snapshot.lastOutput? stepId

/-- How a session treats a call: as a load that succeeded, as one that changes nothing, or as one
that was refused for a key of its snapshot and changes the context. -/
structure Treats (session : Session) (call : Call) : Prop where
  succeeds : (call.isLoad = true ∧ saysSuccess (session.reply call) = true) ↔
    call.loaded?.isSome = true
  refused : ∀ snapshot, call.read? = some (.snapshot snapshot) →
    (call.loaded? = none ↔ snapshot.HasHalvedKey)
  failed : saysSuccess (session.reply call) = false →
    (session.after call = session ↔ ∀ snapshot, call.read? = some (.snapshot snapshot) →
      snapshot.context = session.catalog.context)
  reads : call.isLoad = false → session.after call = session
  workflow : ∀ content path, call.request = .loadWorkflow content path →
    (session.after call).catalog.context = session.catalog.context

/-- Requests without a context are answered as with a value that gives the one of the catalog. -/
theorem readsAs_of_ofValue {session : Session} {context : Value}
    (given : Context.ofValue context = .ok session.catalog.context) : session.ReadsAs context := by
  have same : (session.contextOf none).load = (session.contextOf (some context)).load :=
    given.symm
  constructor
  · intro files template policy
    simp only [answer, resolveTemplate, Resolver.resolve, Resolver.resolveDeep, same]
  · intro files template form
    simp only [answer, previewTemplate, Resolver.preview, same]
  · intro files
    simp only [answer, listPaths, Resolver.availablePaths, same]

/-- Giving a session a catalog changes nothing if and only if it has that catalog. -/
theorem withCatalog_eq_self_iff {session : Session} {catalog : Catalog} :
    session.withCatalog catalog = session ↔ catalog = session.catalog := by
  constructor
  · exact fun same => congrArg Session.catalog same
  · rintro rfl
    rfl

/-- Every call whose integers fit is treated so, whatever the session has kept. -/
theorem treats_of_integersFit (session : Session) {call : Call} (fit : call.IntegersFit) :
    session.Treats call := by
  have cases := session.call_cases call
  refine ⟨session.saysSuccess_iff call, fun snapshot => loaded?_eq_none_iff fit, fun failed => ?_,
    fun other => ?_, ?_⟩
  · rcases cases with ⟨none, same, -⟩ | ⟨loaded, some, -, changed, succeeds⟩
    · rw [none]
      exact iff_of_true same nofun
    · rw [changed, withCatalog_eq_self_iff,
        Loaded.into_eq_self_iff (succeeds.symm.trans failed), some]
      cases loaded with
      | workflow data => exact iff_of_true nofun nofun
      | snapshot data => simp [Loaded.snapshot?]
  · rcases cases with ⟨-, same, -⟩ | ⟨loaded, -, load, -⟩
    · exact same
    · rw [other] at load
      cases load
  · intro content path request
    rcases cases with ⟨-, same, -⟩ | ⟨loaded, some, -, changed, -⟩
    · rw [same]
    · cases loaded with
      | workflow data =>
        rw [changed]
        exact Loaded.context_into_workflow data _
      | snapshot data =>
        obtain ⟨given, other, -⟩ := requestedSnapshot_of_read? some
        cases request.symm.trans other

/-- Calls change a session by what they read. -/
theorem run_eq (session : Session) (calls : List Call) :
    session.run calls =
      session.withCatalog ((reads calls).foldl (fun catalog loaded => loaded.into catalog)
        session.catalog) := by
  induction calls generalizing session with
  | nil => rfl
  | cons call rest ih =>
    change (session.after call).run rest = _
    rw [ih, after_eq]
    cases read : call.read? with
    | none => rw [reads, reads, List.filterMap_cons_none read]; rfl
    | some loaded => rw [reads, reads, List.filterMap_cons_some read]; rfl

/-- Calls load what they read and can name. -/
theorem loads_eq (calls : List Call) : loads calls = (reads calls).filter Loaded.isNamed := by
  rw [loads, reads, List.filter_filterMap]
  rfl

/-- The snapshots among the loads of calls have distinct names. -/
theorem hasDistinctKeys_of_mem_reads {calls : List Call} {snapshot : Snapshot}
    (member : snapshot ∈ (reads calls).filterMap Loaded.snapshot?) : snapshot.HasDistinctKeys := by
  obtain ⟨loaded, inside, same⟩ := List.mem_filterMap.mp member
  obtain ⟨call, -, read⟩ := List.mem_filterMap.mp inside
  cases loaded with
  | workflow data => cases same
  | snapshot data =>
    cases same
    exact hasDistinctKeys_of_read? read

end Session

namespace Loaded

/-- The definitions after several loads are those of the last one that can be named. -/
theorem definitions_foldl (all : List Loaded) (catalog : Catalog) :
    (all.foldl (fun catalog loaded => loaded.into catalog) catalog).definitions =
      ((all.filter isNamed).getLast?.map definitions).getD catalog.definitions := by
  induction all using List.reverseRecOn with
  | nil => rfl
  | append_singleton front last ih =>
    rw [List.foldl_append, List.filter_append]
    change (last.into (front.foldl _ catalog)).definitions = _
    rw [definitions_into]
    cases named : last.isNamed with
    | false => simpa [named] using ih
    | true => simp [named]

/-- The context after several loads is that of the last snapshot. -/
theorem context_foldl (all : List Loaded) (catalog : Catalog) :
    (all.foldl (fun catalog loaded => loaded.into catalog) catalog).context =
      ((all.filterMap snapshot?).getLast?.map Snapshot.context).getD catalog.context := by
  induction all using List.reverseRecOn with
  | nil => rfl
  | append_singleton front last ih =>
    rw [List.foldl_append, List.filterMap_append]
    cases last with
    | workflow data =>
      refine (context_into_workflow data _).trans ?_
      simpa [snapshot?] using ih
    | snapshot data =>
      simp [snapshot?, context_into_snapshot]

end Loaded

namespace Session

/-- **What a session remembers of its loads.** After any calls its catalog holds the definitions of
the last load that succeeded and the context of the last snapshot that was read, and requests
without a context are answered as with the values of that snapshot: under each step its last output
that is not null. The same holds of the last snapshot that was loaded exactly if the context is the
same. The next call is a load that succeeds, or it changes nothing unless it reads a snapshot with
another context, which is refused exactly if a key of an output is no text of characters; the load
of a workflow leaves the context. -/
theorem run_recalls_iff (resolver : Resolver) (calls : List Call) :
    let session := (fresh resolver).run calls
    session.Recalls resolver calls (reads calls) ∧
      (session.Recalls resolver calls (loads calls) ↔
        lastContext (reads calls) = lastContext (loads calls)) ∧
      ∀ call : Call, call.IntegersFit → session.Treats call := by
  intro session
  have ran := run_eq (fresh resolver) calls
  have context : session.catalog.context = lastContext (reads calls) :=
    (congrArg (·.catalog.context) ran).trans (Loaded.context_foldl _ _)
  have definitions : session.catalog.definitions =
      ((loads calls).getLast?.map Loaded.definitions).getD [] := by
    rw [loads_eq]
    exact (congrArg (·.catalog.definitions) ran).trans (Loaded.definitions_foldl _ _)
  have same : session.resolver = resolver := congrArg Session.resolver ran
  -- what counts are the snapshots that were read, or those of them that were loaded
  have recalls {counting : List Loaded} (part : counting ⊆ reads calls)
      (kept : lastContext (reads calls) = lastContext counting) :
      session.Recalls resolver calls counting := by
    refine ⟨same, context.trans kept, definitions, fun snapshot last => ⟨?_, snapshot.get?_outputs⟩⟩
    have inside := List.filterMap_subset Loaded.snapshot? part (List.mem_of_getLast? last)
    refine readsAs_of_ofValue ?_
    rw [context, kept, lastContext, last]
    exact Snapshot.ofValue_explicit (hasDistinctKeys_of_mem_reads inside)
  refine ⟨recalls (List.Subset.refl _) rfl, ⟨fun held => context.symm.trans held.context, ?_⟩,
    fun call => treats_of_integersFit _⟩
  refine recalls ?_
  rw [loads_eq]
  exact List.filter_sublist.subset

/-- A snapshot is loaded, then a load fails, and then the paths of the context are asked for. -/
theorem run_recalls_iff_refused :
    let given : Value := .map [(.text "variables", .map [(.text "n", .int 1)]),
      (.text "steps", .list [.map [(.text "step_id", .text "s"), (.text "output", .int 2)]])]
    let calls : List Call := [⟨fun _ => .missing, .loadSnapshot given⟩,
      ⟨fun _ => .missing, .loadSnapshot (.map [(.text "steps", .null)])⟩]
    let next : Call := ⟨fun _ => .missing, .listPaths none⟩
    next.IntegersFit ∧ (loads calls).length = 1 ∧
      ((fresh .default).run calls).Recalls .default calls (loads calls) ∧
      ((fresh .default).run calls).Treats next := by
  intro given calls next
  have recalls := run_recalls_iff .default calls
  exact ⟨trivial, rfl, recalls.2.1.mpr rfl, recalls.2.2 next trivial⟩

/-- The text of a snapshot in which two halves of a surrogate pair are the key of an output. -/
def halvedKeyContent : String :=
  "\x7b\"variables\":\x7b\"x\":1\x7d,\"steps\":[\x7b\"stepId\":\"s\","
    ++ "\"output\":\x7b\"\\ud83d\\ude00\":1\x7d\x7d]\x7d"

/-- The key: the escapes of the two halves do not make up a character. -/
def halvedKey : Text.Halved :=
  ⟨[.half ⟨0x3d, by decide⟩, .half ⟨0x600, by decide⟩], rfl⟩

/-- The tokens of the text with the halved key. -/
def halvedKeyTokens : List Yaml.Token :=
  [.flowMappingStart, .key, .scalar "variables" false, .value, .flowMappingStart, .key,
    .scalar "x" false, .value, .scalar "1" true, .flowMappingEnd, .flowEntry, .key,
    .scalar "steps" false, .value, .flowSequenceStart, .flowMappingStart, .key,
    .scalar "stepId" false, .value, .scalar "s" false, .flowEntry, .key,
    .scalar "output" false, .value, .flowMappingStart, .key, .halved halvedKey, .value,
    .scalar "1" true, .flowMappingEnd, .flowMappingEnd, .flowSequenceEnd, .flowMappingEnd,
    .streamEnd]

/-- The text with the halved key is a document with that key. -/
theorem read_halvedKeyContent : Yaml.read halvedKeyContent =
    .ok (.map [(.text "variables", .map [(.text "x", .int 1)]),
      (.text "steps", .list [.map [(.text "stepId", .text "s"),
        (.text "output", .map [(.halved halvedKey, .int 1)])]])]) := by
  have tokens : Yaml.Token.ofText halvedKeyContent.toList = halvedKeyTokens := by
    decide +kernel
  have form : Yaml.Tag.ofPlainText "1" = .int := by decide +kernel
  have node : Yaml.Node.ofTokens halvedKeyTokens = .ok (some (.mapping .mapping [
      (.scalar .text "variables", .mapping .mapping
        [(.scalar .text "x", .scalar (.ofPlainText "1") "1")]),
      (.scalar .text "steps", .sequence .sequence [.mapping .mapping [
        (.scalar .text "stepId", .scalar .text "s"),
        (.scalar .text "output", .mapping .mapping
          [(.halved .text halvedKey, .scalar (.ofPlainText "1") "1")])]])])) := rfl
  rw [Yaml.read, tokens, node, form]
  simp only [ok_bind, Yaml.Node.value, Yaml.Node.values, Yaml.Node.setEntries, Yaml.Node.merged,
    Yaml.Node.own]
  rfl

/-- The load of such a snapshot fails, and yet its context is that of the session afterwards. -/
theorem after_halvedKeyContent :
    let session := fresh .default
    let call : Call := ⟨fun _ => .missing, .loadSnapshot (.text halvedKeyContent)⟩
    call.isLoad = true ∧ saysSuccess (session.reply call) = false ∧
      session.catalog.context.vars = [] ∧
      (session.after call).catalog.context.vars = [("x", .int 1)] := by
  intro session call
  have requested : requestedSnapshot (.text halvedKeyContent) =
      .ok (.ok ⟨[("x", .int 1)], [⟨"s", .map [(.halved halvedKey, .int 1)]⟩], []⟩) :=
    requestedSnapshot_text read_halvedKeyContent rfl
  have answered : session.answer call.files call.request =
      session.loadSnapshot (.text halvedKeyContent) := rfl
  rw [reply, after, answered, loadSnapshot, requested]
  exact ⟨rfl, rfl, rfl, rfl⟩

end Session
end Stencil
