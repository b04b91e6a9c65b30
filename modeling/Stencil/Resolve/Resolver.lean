import Stencil.Context.Check
import Stencil.Context.Flatten
import Stencil.Resolve.Text
import Stencil.Transform.Builtin

/-!
# Resolvers

A resolver is a registry of transformations and a policy. It resolves references, texts and whole
values against contexts, which are checked when they are given as values, and it answers the
questions of an editor: which paths lead nowhere, what a template will look like, and what is wrong
with it before there is a context.
-/

namespace Stencil

/-- Where a context comes from: one at hand, or a value still to be checked. -/
inductive Context.Source
  | live (context : Context)
  | given (value : Value)

/-- The context that a source gives. -/
def Context.Source.load : Context.Source → Outcome Context
  | .live context => .ok context
  | .given value => Context.ofValue value

/-- The means of resolving templates. -/
structure Resolver where
  registry : Registry
  policy : Policy

/-- One distinct reference of a previewed template. -/
structure PreviewedReference where
  raw : String
  path : String
  value : Value
  resolved : Bool

/-- What a template will look like: its text, the resolved text, its distinct references and what
is reported on them. -/
structure Preview where
  template : String
  resolved : String
  references : List PreviewedReference
  diagnostics : List Diagnostic

/-- The references of a preview whose paths lead nowhere. -/
def Preview.unresolved (preview : Preview) : List PreviewedReference :=
  preview.references.filter (!·.resolved)

/-- What reading a resolved text as a literal yields. -/
structure Evaluation where
  success : Bool
  value : Value
  error : Option String
  /-- The paths of the references in the text. -/
  paths : List String

/-- The text of a resolution, whose value is always one. -/
def Resolution.text (resolution : Resolution) : String :=
  resolution.value.text?.getD ""

/-- Whether a text holds a pair of opening braces. -/
def holdsBraces (text : String) : Bool :=
  Text.occursIn ['{', '{'] text.toList

/-- References without repeats of the same raw text, the first of each. -/
def distinctReferences (all : List Reference) : List Reference :=
  all.eraseDupsBy fun kept new => kept.raw == new.raw

/-- The number that a text spells exactly as it would be shown. -/
def shownNumber? (chars : List Char) : Option Value := do
  let number := (← NumberLiteral.ofText? chars).value
  if number.isFinite && number.displayText.toList == chars then
    return if number.isWhole then .int number.truncate else .float number
  else none

/-- A text read as a literal: a number spelled as it would be shown, a truth value, or a text with
quotes around it; any other text is itself, without the blanks around it. -/
def literalValue (text : String) : Value :=
  let chars := Text.trim text.toList
  match shownNumber? chars with
  | some number => number
  | none =>
    if chars = "true".toList then .bool true
    else if chars = "false".toList then .bool false
    else
      match chars with
      | quote :: second :: rest =>
        let body := second :: rest
        if Step.isQuote quote && body.getLast? == some quote then
          .text (String.ofList body.dropLast)
        else .text (String.ofList chars)
      | chars => .text (String.ofList chars)

namespace Resolver

/-- The resolver with the built-in transformations, the given policy and the given template of
dates. -/
def builtin (policy : Policy) (dateTemplate : String) : Resolver :=
  ⟨Builtin.registry dateTemplate, policy⟩

/-- The resolver that is used when nothing is configured. -/
def default : Resolver :=
  builtin .literal Builtin.defaultDateTemplate

/-- What a reference resolves to in the context of a source. -/
def resolveReference (resolver : Resolver) (reference : Reference) (source : Context.Source) :
    Outcome Resolution := do
  reference.resolve resolver.registry (← source.load).merged

/-- The first reference of a text, or the text itself as the inside of one, resolved against a
context. -/
def resolveReferenceText (resolver : Resolver) (text : String) (source : Context.Source) :
    Outcome Resolution := do
  match ← Reference.ofText? text with
  | some reference => resolver.resolveReference reference source
  | none => return ⟨.undefined, false, [.notReference (Text.quoted text)], []⟩

/-- A template resolved against a context, under the policy of the given name if there is one.
Values that are no texts with opening braces stay as they are. -/
def resolve (resolver : Resolver) (template : Value) (source : Context.Source)
    (policy : Option String) : Outcome Resolution :=
  match template with
  | .text s =>
    if holdsBraces s then do
      let policy ← resolver.policy.chosen policy
      resolveText resolver.registry policy (← source.load).merged s
    else .ok ⟨template, true, [], []⟩
  | _ => .ok ⟨template, true, [], []⟩

mutual

/-- A value with the references in its texts resolved; lists, tuples and maps are gone through,
and keys stay as they are. -/
def resolveWithin (resolver : Resolver) (policy : Policy) (values : Fields Value) :
    Value → Outcome Value
  | .text s => do return (← resolveText resolver.registry policy values s).value
  | .list items | .tuple items => do
    return .list (← resolveItems resolver policy values items)
  | .map entries => do return .map (← resolveEntries resolver policy values entries)
  | leaf => .ok leaf

/-- Several values with the references in their texts resolved. -/
def resolveItems (resolver : Resolver) (policy : Policy) (values : Fields Value) :
    List Value → Outcome (List Value)
  | [] => .ok []
  | item :: rest => do
    let image ← resolveWithin resolver policy values item
    return image :: (← resolveItems resolver policy values rest)

/-- The entries of a map with the references in their values resolved. -/
def resolveEntries (resolver : Resolver) (policy : Policy) (values : Fields Value) :
    List (Value × Value) → Outcome (List (Value × Value))
  | [] => .ok []
  | (key, value) :: rest => do
    let image ← resolveWithin resolver policy values value
    return (key, image) :: (← resolveEntries resolver policy values rest)

end

/-- A whole value resolved against a context, under the policy of the given name if there is
one. -/
def resolveDeep (resolver : Resolver) (template : Value) (source : Context.Source)
    (policy : Option String) : Outcome Value := do
  let policy ← resolver.policy.chosen policy
  resolver.resolveWithin policy (← source.load).merged template

/-- The paths of a text that lead nowhere in a context, without repeats. -/
def unresolvedPaths (_resolver : Resolver) (text : String) (source : Context.Source) :
    Outcome (List String) := do
  let values := (← source.load).merged
  let missing ← (← references text).filterM fun reference => do
    return (← reference.pathValue values).isUndefined
  return (missing.map (·.path)).eraseDups

/-- Whether every path of a text leads somewhere in a context. -/
def canResolveAll (resolver : Resolver) (text : String) (source : Context.Source) :
    Outcome Bool := do
  return (← resolver.unresolvedPaths text source).isEmpty

/-- The policy of templates as an editor shows them: references without a value are kept where the
policy would refuse them. -/
def previewPolicy (resolver : Resolver) : Policy :=
  if resolver.policy = .raise then .keep else resolver.policy

/-- What an editor shows of a template: its references, each once, and its text with their values.
-/
def preview (resolver : Resolver) (text : String) (source : Context.Source) :
    Outcome Preview := do
  let values := (← source.load).merged
  let all := distinctReferences (← references text)
  let resolutions ← all.mapM (Reference.resolve resolver.registry values)
  let resolved ← if all.isEmpty then pure text
    else do pure (← resolveText resolver.registry resolver.previewPolicy values text).text
  return {
    template := text
    resolved
    references := (all.zip resolutions).map fun (reference, resolution) =>
      ⟨reference.raw, reference.path, resolution.value, resolution.resolved⟩
    diagnostics := resolutions.flatMap (·.diagnostics) }

/-- What is wrong with one reference of a template, whatever the context. -/
def referenceProblems (resolver : Resolver) (reference : Reference) : List Diagnostic :=
  let path :=
    if reference.isEmpty then [.emptyReference reference.raw]
    else if Path.isValid reference.path then []
    else [.invalidPath reference.path]
  let unknown := reference.steps.filter fun step => !resolver.registry.has step.name
  path ++ unknown.map fun step => .unknownTransformation (some reference.path) step.name

/-- What is wrong with a template, whatever the context. -/
def problems (resolver : Resolver) (text : String) : Outcome (List Diagnostic) := do
  return (distinctReferences (← references text)).flatMap resolver.referenceProblems

/-- A text resolved against a context and read as a literal. -/
def evaluate (resolver : Resolver) (text : String) (source : Context.Source) :
    Outcome Evaluation := do
  let paths := (← references text).map (·.path)
  match resolver.resolve (.text text) source none with
  | .ok resolution => return ⟨true, literalValue resolution.text, none, paths⟩
  | .error (.unresolved missing template) =>
    return ⟨false, .null, some (Fault.unresolved missing template).message, paths⟩
  | .error fault => .error fault

/-- The paths of the values in a context. -/
def availablePaths (_resolver : Resolver) (source : Context.Source) : Outcome (List String) := do
  (← source.load).leafPaths

end Resolver
end Stencil
