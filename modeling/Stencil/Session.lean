import Stencil.Load.Document
import Stencil.Load.Home
import Stencil.Report.Export
import Stencil.Report.Form
import Stencil.Report.Markdown
import Stencil.Resolve.Settings

/-!
# Sessions

A session holds a resolver and a catalog and answers requests, one after the other. Two kinds of
request load a document and change the catalog; the others only read. A request without a context
is about the live context of the catalog. The main definitions are `Session.start` and
`Session.answer`.
-/

namespace Stencil

/-- The form of an answer. -/
inductive AnswerForm
  | data
  | markdown
  deriving DecidableEq, Repr

/-- What restricts a list of variables; empty texts do not. -/
structure VariableFilter where
  query : Option String
  start : Option String
  scope : Option String
  category : Option String

/-- A request to a session. -/
inductive Request
  | resolveTemplate (template : Value) (context : Option Value) (policy : Option String)
  | previewTemplate (template : String) (context : Option Value) (form : AnswerForm)
  | validateTemplate (template : String) (form : AnswerForm)
  | listTransformations (category : Option String) (form : AnswerForm)
  /-- The text of a workflow, or else the path of a file with it. -/
  | loadWorkflow (content path : Option String)
  /-- A snapshot, or the text of one. -/
  | loadSnapshot (snapshot : Value)
  | listVariables (filter : VariableFilter) (form : AnswerForm)
  | listPaths (context : Option Value)

/-- A text that restricts something; the empty text does not. -/
def given? (text : Option String) : Option String :=
  text.filter (!·.isEmpty)

/-- The state of a session. -/
structure Session where
  resolver : Resolver
  catalog : Catalog

namespace Session

/-- The name of the variable of the environment that holds the path of a workflow. -/
def workflowVariable : String :=
  "WORKFLOW_VARIABLES_WORKFLOW_FILE"

/-- The catalog with the variables of a workflow that could be loaded, or else as it was. -/
def withLoaded (catalog : Catalog) (load : Load Workflow) : Outcome Catalog :=
  match load.value? with
  | some workflow => catalog.loadWorkflow workflow
  | none => .ok catalog

/-- The path of the workflow that an environment asks for. -/
def requestedPath (environment : Fields String) : String :=
  Text.trimmed ((environment.get? workflowVariable).getD "")

/-- The catalog with the workflow loaded that is found under a path, which may lead into a home
directory. A failure to load it is passed over. -/
def preloaded (homes : Homes) (files : String → File) (path : String) : Outcome Catalog := do
  let path ← homes.expand path
  withLoaded .empty (← Load.ofFile .workflow path (files path))

/-- The session that an environment asks for, with the workflow loaded that it names. -/
def start (environment : Fields String) (homes : Homes) (files : String → File) :
    Outcome Session := do
  let resolver := (Settings.ofEnvironment environment).resolver
  let path := requestedPath environment
  if path.isEmpty then return ⟨resolver, .empty⟩
  else return ⟨resolver, ← preloaded (homes.ofEnvironment environment) files path⟩

/-- The source of the context for a request: the one that is given, or else the live one. -/
def contextOf (session : Session) (context : Option Value) : Context.Source :=
  match context with
  | some value => .given value
  | none => .live session.catalog.context

/-- An answer with the status of a failure, its message and further entries. -/
def failureValue (error : String) (further : Fields Value) : Value :=
  .ofFields ([("status", .text "failure"), ("error", .text error)] ++ further)

/-- An answer with the status of a success and further entries. -/
def successValue (further : Fields Value) : Value :=
  .ofFields (("status", .text "success") :: further)

/-- The number of things and the things themselves. -/
def counted (name : String) (items : List Value) : Fields Value :=
  [("total", .int items.length), (name, .list items)]

/-- The answer to a request with a context that is none. -/
def invalidContext (problems : List Problem) : Value :=
  failureValue ("Invalid context. Expected an object with optional 'variables', 'stepOutputs' and "
    ++ s!"'globalVariables' mappings: {problems.length} error(s)") []

/-- The answer to a request with a snapshot that is none, or of which something of the given name
cannot be made. -/
def invalidSnapshot (name : String) (problems : List Problem) : Value :=
  let errors := if problems.length = 1 then "error" else "errors"
  failureValue ("Invalid execution snapshot: "
    ++ s!"{problems.length} validation {errors} for {name}") []

/-- An answer in which faults of references and contexts are failures. -/
def answerOf (result : Outcome Value) : Outcome Value :=
  match result with
  | .error (.unresolved paths template) =>
    .ok (failureValue (Fault.unresolved paths template).message
      [("unresolved_paths", .ofTexts paths)])
  | .error (.invalid problems) => .ok (invalidContext problems)
  | other => other

/-- The answer to a request to resolve a text or a value. -/
def resolveTemplate (session : Session) (template : Value) (source : Context.Source)
    (policy : Option String) : Outcome Value :=
  answerOf <| match template with
  | .text _ => do
    let resolution ← session.resolver.resolve template source policy
    return successValue [("resolved", resolution.value),
      ("unresolved_paths", .ofTexts resolution.unresolvedPaths),
      ("diagnostics", diagnosticsValue resolution.diagnostics)]
  | _ => do
    return successValue [("resolved", ← session.resolver.resolveDeep template source policy)]

/-- The answer to a request for a preview. -/
def previewTemplate (session : Session) (template : String) (source : Context.Source)
    (form : AnswerForm) : Outcome Value :=
  match session.resolver.preview template source with
  | .ok preview =>
    match form with
    | .markdown => do return .text (← Markdown.preview preview)
    | .data => .ok preview.toValue
  | .error fault => answerOf (.error fault)

/-- Whether a path is that of a variable or leads into one. -/
def leadsInto (path known : String) : Bool :=
  path == known || (known ++ ".").toList.isPrefixOf path.toList

/-- A warning for each path of a template that leads into no variable of the catalog, in
alphabetical order. An empty catalog knows nothing to warn of. -/
def warnings (session : Session) (template : String) : Outcome (List String) := do
  let known := session.catalog.all.map (·.path)
  if known.isEmpty then return []
  else
    let paths := (← referencedPaths template).filter (!·.isEmpty)
    let unknown := paths.filter fun path => !known.any (leadsInto path)
    return (unknown.map fun path => s!"Variable '{path}' is not in the catalog").mergeSort
      fun first second => !(second < first)

/-- The answer to a request to check a template. -/
def validateTemplate (session : Session) (template : String) (form : AnswerForm) :
    Outcome Value := do
  let problems ← session.resolver.problems template
  let warnings ← session.warnings template
  match form with
  | .markdown => return .text (Markdown.validation problems warnings)
  | .data =>
    return .ofFields [("valid", .bool problems.isEmpty), ("errors", diagnosticsValue problems),
      ("warnings", .ofTexts warnings)]

/-- The answer to a request for the transformations, or for those of a category. -/
def listTransformations (session : Session) (category : Option String) (form : AnswerForm) :
    Value :=
  let registry := session.resolver.registry
  let listed := match given? category with
    | some category => registry.inCategory (some category)
    | none => registry.all
  match form with
  | .markdown => .text (Markdown.transformations listed category)
  | .data =>
    .ofFields [("categories", .ofTexts registry.categories),
      ("transformations", .list (listed.map Transformation.toValue))]

/-- The definitions that a filter lets pass. -/
def filtered (catalog : Catalog) (filter : VariableFilter) : List Definition :=
  let found := match given? filter.query, given? filter.start with
    | some query, _ => catalog.search query
    | none, some start => catalog.suggest start
    | none, none => catalog.all
  found.filter fun definition =>
    (given? filter.scope).all (definition.scope.name == ·)
      && (given? filter.category).all fun category =>
        definition.category.any (·.name == category)

/-- The groups of a catalog, restricted to given definitions; empty ones are left out. -/
def groupsOf (catalog : Catalog) (definitions : List Definition) : List DefinitionGroup :=
  let ids := definitions.map (·.id)
  (catalog.groups.map fun group => { group with
    definitions := group.definitions.filter fun definition => ids.contains definition.id }).filter
      (!·.definitions.isEmpty)

/-- The answer to a request for the definitions that a filter lets pass. -/
def listVariables (session : Session) (filter : VariableFilter) (form : AnswerForm) :
    Outcome Value := do
  let listed := filtered session.catalog filter
  match form with
  | .markdown => return .text (Markdown.groups (groupsOf session.catalog listed))
  | .data => return .ofFields (counted "variables" (← listed.mapM Definition.exported))

/-- The answer to a request for the paths of a context. -/
def listPaths (session : Session) (source : Context.Source) : Outcome Value :=
  answerOf do
    let paths ← session.resolver.availablePaths source
    return .ofFields (counted "paths" (paths.map .text))

/-- The session with another catalog. -/
def withCatalog (session : Session) (catalog : Catalog) : Session :=
  { session with catalog }

/-- The workflow that a request to load one asks for; none if it names no source. -/
def requestedWorkflow (files : String → File) (content path : Option String) :
    Outcome (Option (Load Workflow)) :=
  match content, given? path with
  | some content, _ => some <$> Load.ofText .workflow content "<workflow_yaml>"
  | none, some path => some <$> Load.ofFile .workflow path (files path)
  | none, none => .ok none

/-- The answer to a request to load a workflow, and the session afterwards. -/
def loadWorkflow (session : Session) (files : String → File) (content path : Option String) :
    Outcome Value × Session :=
  match requestedWorkflow files content path with
  | .error fault => (.error fault, session)
  | .ok none => (.ok (failureValue "Provide either workflow_yaml or file_path" []), session)
  | .ok (some load) =>
    match load.value? with
    | some workflow =>
      match session.catalog.loadWorkflow workflow with
      | .ok catalog =>
        let summaries := catalog.all.map fun definition => Value.ofFields definition.summary
        (.ok (successValue (counted "variables" summaries)), session.withCatalog catalog)
      | .error fault => (.error fault, session)
    | none => (.ok (failureValue (load.error.getD "") []), session)

/-- The snapshot that a request to load one gives, or the answer to a request that gives none. A
document is made of characters. -/
def requestedSnapshot (snapshot : Value) : Outcome (Except Value Snapshot) :=
  match snapshot with
  | .text content => do
    let load ← Load.ofText .snapshot content "<snapshot>"
    match load.value? with
    | some snapshot => return .ok snapshot
    | none => return .error (failureValue (load.error.getD "") [])
  | .halved _ => return .error (failureValue "Invalid YAML syntax in <snapshot>" [])
  | other =>
    match Snapshot.ofItems other with
    | .ok snapshot => .ok (.ok snapshot)
    | .error (.invalid problems) => .ok (.error (invalidSnapshot "ExecutionSnapshot" problems))
    | .error fault => .error fault

/-- The answer to a request whose snapshot was read, given how loading it into a catalog ended and
the catalog afterwards. -/
def answerOfLoaded (result : Outcome Unit) (catalog : Catalog) : Outcome Value :=
  match result with
  | .ok () => .ok (successValue (("total", .int catalog.size)
      :: ("steps", .ofTexts (Fields.keys catalog.context.stepOutputs))
      :: [("variables", .ofTexts (catalog.all.map (·.path)))]))
  | .error (.invalid problems) => .ok (invalidSnapshot "VariableDefinition" problems)
  | .error fault => .error fault

/-- The answer to a request to load a snapshot, and the session afterwards. -/
def loadSnapshot (session : Session) (snapshot : Value) : Outcome Value × Session :=
  match requestedSnapshot snapshot with
  | .error fault => (.error fault, session)
  | .ok (.error answer) => (.ok answer, session)
  | .ok (.ok snapshot) =>
    let (result, catalog) := session.catalog.loadSnapshot snapshot
    (answerOfLoaded result catalog, session.withCatalog catalog)

/-- The answer to a request, and the session afterwards. -/
def answer (session : Session) (files : String → File) (request : Request) :
    Outcome Value × Session :=
  match request with
  | .resolveTemplate template context policy =>
    (session.resolveTemplate template (session.contextOf context) policy, session)
  | .previewTemplate template context form =>
    (session.previewTemplate template (session.contextOf context) form, session)
  | .validateTemplate template form => (session.validateTemplate template form, session)
  | .listTransformations category form => (.ok (session.listTransformations category form), session)
  | .loadWorkflow content path => session.loadWorkflow files content path
  | .loadSnapshot snapshot => session.loadSnapshot snapshot
  | .listVariables filter form => (session.listVariables filter form, session)
  | .listPaths context => (session.listPaths (session.contextOf context), session)

end Session
end Stencil
