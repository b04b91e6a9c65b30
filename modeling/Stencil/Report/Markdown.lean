import Stencil.Catalog.Basic
import Stencil.Resolve.Resolver

/-!
# Reports in Markdown

Previews, lists of transformations and of variables, and the result of checking a template as
pages in Markdown. A page is a list of lines.
-/

namespace Stencil.Markdown

/-- A page of several lines. -/
def page (lines : List String) : String :=
  "\n".intercalate lines

/-- A text between the marks of code. -/
def code (text : String) : String :=
  s!"`{text}`"

/-- A section under a heading, with an empty line in front. -/
def group (heading : String) (lines : List String) : List String :=
  ["", heading] ++ lines

/-- A diagnostic as an item of a list. -/
def diagnosticItem (diagnostic : Diagnostic) : String :=
  s!"- {code diagnostic.code.name}: {diagnostic.message}"

/-- A previewed reference as an item of a list. -/
def previewItem (previewed : PreviewedReference) : Outcome String := do
  let mark := if previewed.resolved then "ok" else "unresolved"
  return s!"- {code previewed.raw} [{mark}]: {← previewed.value.substitution}"

/-- A preview with the status of each reference. -/
def preview (preview : Preview) : Outcome String := do
  let items ← preview.references.mapM previewItem
  let references :=
    if items.isEmpty then [] else group s!"## References ({items.length})" items
  let diagnostics :=
    if preview.diagnostics.isEmpty then []
    else group "## Diagnostics" (preview.diagnostics.map diagnosticItem)
  return page (["# Template Preview", "", "## Resolved", "```", preview.resolved, "```"]
    ++ references ++ diagnostics)

/-- The heading under which a transformation is listed. -/
def transformationHeading (transformation : Transformation) : String :=
  match transformation.category with
  | none | some "" => "Other"
  | some category => category

/-- A transformation as an item of a list. -/
def transformationItem (transformation : Transformation) : String :=
  let sample := match transformation.example? with
    | none | some "" => ""
    | some sample => s!" ({code sample})"
  s!"- **{transformation.id}**: {transformation.description}{sample}"

/-- Transformations by category, in the order in which the categories first appear. The category
that they were chosen by is named when there are none. -/
def transformations (all : List Transformation) (category : Option String) : String :=
  if all.isEmpty then
    match category with
    | none | some "" => "No transformations found"
    | some category => s!"No transformations found in category: {category}"
  else
    let headings := (all.map transformationHeading).eraseDups
    page (s!"## Available Transformations ({all.length})" :: headings.flatMap fun heading =>
      group s!"### {heading}"
        ((all.filter (transformationHeading · == heading)).map transformationItem))

/-- The definition of a variable as an item of a list. -/
def definitionItem (definition : Definition) : String :=
  let details := match definition.description with
    | none | some "" => ""
    | some description => s!": {description}"
  s!"- {code (braced definition.path)} ({definition.kind.name}){details}"

/-- A page with a section for each group of definitions. -/
def groups (all : List DefinitionGroup) : String :=
  if all.isEmpty then "No variables found"
  else
    let total := (all.flatMap (·.definitions)).length
    page (s!"## Variables ({total})" :: all.flatMap fun one =>
      group s!"### {one.heading}" (one.definitions.map definitionItem))

/-- The problems of a template and the warnings on it. -/
def validation (problems : List Diagnostic) (warnings : List String) : String :=
  let verdict :=
    if problems.isEmpty then ["Template is valid"]
    else s!"## Template has {problems.length} problem(s)" :: problems.map diagnosticItem
  let notes :=
    if warnings.isEmpty then []
    else group s!"### Warnings ({warnings.length})" (warnings.map fun warning => s!"- {warning}")
  page (verdict ++ notes)

end Stencil.Markdown
