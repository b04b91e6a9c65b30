import Stencil.Proofs.Resolve.Deep
import Stencil.Proofs.Resolve.Template

/-!
# What a template reads

A reference reads one value of a context, the one under the name that its path begins with, and
values are filled in without being read as templates. So contexts that agree on the names that a
template's own references begin with (`Value.rootNames`) cannot be told apart with it. The main
statement is `noninterference`: every way of resolving such a template ends alike in both, with the
same result or with the same fault.
-/

namespace Stencil

/-- Whether two dictionaries have the same values under the given names, or lack the same. -/
def Fields.AgreeOn {α : Type} (names : List String) (first second : Fields α) : Prop :=
  ∀ name ∈ names, Fields.get? first name = Fields.get? second name

namespace Reference

/-- The name that the path of a reference begins with; an empty path has none. -/
def root? (reference : Reference) : Option String :=
  reference.segments.head?.map (·.name)

/-- The name that the path in the body of a hole begins with. A hole that is not read as a
reference has none. -/
def rootIn? (body : List Char) : Option String :=
  match ofHole 0 body with
  | .ok reference => reference.root?
  | .error _ => none

/-- The root of a hole is that of the reference it spells. -/
theorem rootIn?_eq {position : Nat} {body : List Char} {reference : Reference}
    (read : ofHole position body = .ok reference) : rootIn? body = reference.root? := by
  rw [rootIn?, ofHole_elsewhere read 0]
  rfl

end Reference

/-- The names that the references of a text begin with. -/
def rootNames (text : String) : List String :=
  (Token.bodies (Token.tokens text.toList)).filterMap Reference.rootIn?

/-- The names are those of the references found, where the text is read as references. -/
theorem rootNames_eq {text : String} {found : List Reference}
    (reads : references text = .ok found) : rootNames text = found.filterMap Reference.root? := by
  suffices aux : ∀ (tokens : List Token) (position : Nat) (found : List Reference),
      Reference.ofTokens position tokens = .ok found →
        (Token.bodies tokens).filterMap Reference.rootIn? = found.filterMap Reference.root? from
    aux _ 0 found reads
  intro tokens
  induction tokens with
  | nil =>
    intro position found read
    cases read
    rfl
  | cons token rest ih =>
    intro position found read
    cases token with
    | char c => exact ih (position + 1) found read
    | hole body =>
      obtain ⟨reference, others, here, restRead, rfl⟩ := Reference.ofTokens_hole_eq_ok.mp read
      rw [Token.bodies, List.filterMap_cons, List.filterMap_cons, ih _ others restRead,
        Reference.rootIn?_eq here]

/-- The names that the references in the texts of a template begin with. -/
def Value.rootNames (template : Value) : List String :=
  template.texts.flatMap Stencil.rootNames

section Lookup

variable {registry : Registry} {first second : Fields Value}

/-- A path reads the value under its first name only. -/
theorem lookup_congr {path : Path}
    (agree : ∀ segment ∈ path.head?,
      Fields.get? first segment.name = Fields.get? second segment.name) :
    lookup path first = lookup path second := by
  cases path with
  | nil => rfl
  | cons segment rest => rw [lookup_cons, lookup_cons, agree segment rfl]

/-- A path is followed alike among values that agree on its root. -/
theorem Reference.pathValue_congr {reference : Reference}
    (agree : Fields.AgreeOn reference.root?.toList first second) :
    reference.pathValue first = reference.pathValue second := by
  have same : lookup reference.segments first = lookup reference.segments second := by
    refine lookup_congr fun segment leads => agree segment.name ?_
    rw [root?, leads]
    exact List.mem_singleton_self _
  rw [pathValue, pathValue, same]

/-- A text is resolved alike among values that agree on its roots. -/
theorem resolveText_congr {policy : Policy} {text : String}
    (agree : Fields.AgreeOn (rootNames text) first second) :
    resolveText registry policy first text = resolveText registry policy second text := by
  refine resolveText_congr_of_resolve fun body hole position reference read => ?_
  have own : Fields.AgreeOn reference.root?.toList first second := by
    rw [← Reference.rootIn?_eq read]
    exact fun name named => agree name
      (List.mem_filterMap.mpr ⟨body, hole, Option.mem_toList.mp named⟩)
  rw [Reference.resolve, Reference.resolve, Reference.pathValue_congr own]

/-- A reference that is found in a text reads alike where the text does. -/
theorem Reference.pathValue_congr_of_mem {text : String} {found : List Reference}
    (reads : references text = .ok found) (agree : Fields.AgreeOn (rootNames text) first second)
    {reference : Reference} (member : reference ∈ found) :
    reference.pathValue first = reference.pathValue second := by
  rw [rootNames_eq reads] at agree
  exact pathValue_congr fun name named => agree name
    (List.mem_filterMap.mpr ⟨reference, member, Option.mem_toList.mp named⟩)

end Lookup

namespace Resolver

variable {resolver : Resolver} {template : Value} {text : String} {left right : Context.Source}
  {leftContext rightContext : Context}

/-- A resolver cannot tell two contexts apart with a template: it is resolved alike in both, under
every policy, and so is what an editor asks of the texts in it. -/
structure Indistinguishable (resolver : Resolver) (template : Value)
    (left right : Context.Source) : Prop where
  resolve : ∀ policy,
    resolver.resolve template left policy = resolver.resolve template right policy
  resolveDeep : ∀ policy,
    resolver.resolveDeep template left policy = resolver.resolveDeep template right policy
  preview : ∀ text ∈ template.texts, resolver.preview text left = resolver.preview text right
  unresolvedPaths : ∀ text ∈ template.texts,
    resolver.unresolvedPaths text left = resolver.unresolvedPaths text right
  evaluate : ∀ text ∈ template.texts, resolver.evaluate text left = resolver.evaluate text right

/-- A text is resolved alike in contexts that agree on its roots. -/
theorem resolve_congr (leftLoads : left.load = .ok leftContext)
    (rightLoads : right.load = .ok rightContext)
    (agree : Fields.AgreeOn (rootNames text) leftContext.merged rightContext.merged)
    (policy : Option String) :
    resolver.resolve (.text text) left policy = resolver.resolve (.text text) right policy := by
  simp only [resolve, leftLoads, rightLoads, Outcome.ok_bind, resolveText_congr agree]

/-- A text is previewed alike in contexts that agree on its roots. -/
theorem preview_congr (leftLoads : left.load = .ok leftContext)
    (rightLoads : right.load = .ok rightContext)
    (agree : Fields.AgreeOn (rootNames text) leftContext.merged rightContext.merged) :
    resolver.preview text left = resolver.preview text right := by
  rw [preview, preview, leftLoads, rightLoads, Outcome.ok_bind, Outcome.ok_bind]
  cases reads : references text with
  | error fault => rfl
  | ok found =>
    have same : (distinctReferences found).mapM
          (Reference.resolve resolver.registry leftContext.merged) =
        (distinctReferences found).mapM
          (Reference.resolve resolver.registry rightContext.merged) := by
      refine Outcome.mapM_congr fun reference first => ?_
      have member : reference ∈ found := mem_of_mem_firstOn first
      rw [Reference.resolve, Reference.resolve,
        Reference.pathValue_congr_of_mem reads agree member]
    rw [Outcome.ok_bind, Outcome.ok_bind]
    dsimp only
    rw [same, resolveText_congr agree]

/-- The unresolved paths of a text are the same in contexts that agree on its roots. -/
theorem unresolvedPaths_congr (leftLoads : left.load = .ok leftContext)
    (rightLoads : right.load = .ok rightContext)
    (agree : Fields.AgreeOn (rootNames text) leftContext.merged rightContext.merged) :
    resolver.unresolvedPaths text left = resolver.unresolvedPaths text right := by
  rw [unresolvedPaths, unresolvedPaths, leftLoads, rightLoads, Outcome.ok_bind, Outcome.ok_bind]
  cases reads : references text with
  | error fault => rfl
  | ok found =>
    rw [Outcome.ok_bind, Outcome.ok_bind, Outcome.filterM_congr fun reference member => by
      rw [Reference.pathValue_congr_of_mem reads agree member]]

/-- A text is evaluated alike in contexts that agree on its roots. -/
theorem evaluate_congr (leftLoads : left.load = .ok leftContext)
    (rightLoads : right.load = .ok rightContext)
    (agree : Fields.AgreeOn (rootNames text) leftContext.merged rightContext.merged) :
    resolver.evaluate text left = resolver.evaluate text right := by
  rw [evaluate, evaluate, resolve_congr leftLoads rightLoads agree]

/-- **Data does not pull in other data.** Contexts that agree on the names that the references of a
template begin with cannot be told apart with it, whatever texts stand in their values and whatever
the rest of them holds. -/
theorem noninterference (leftLoads : left.load = .ok leftContext)
    (rightLoads : right.load = .ok rightContext)
    (agree : Fields.AgreeOn template.rootNames leftContext.merged rightContext.merged) :
    resolver.Indistinguishable template left right := by
  have own {text : String} (inside : text ∈ template.texts) :
      Fields.AgreeOn (rootNames text) leftContext.merged rightContext.merged :=
    fun name named => agree name (List.mem_flatMap.mpr ⟨text, inside, named⟩)
  refine ⟨?_, ?_, ?_, ?_, ?_⟩
  · intro policy
    cases template with
    | text s => exact resolve_congr leftLoads rightLoads (own (List.mem_singleton_self s)) policy
    | _ => rfl
  · intro policy
    have same (asked : Policy) :
        resolver.resolveWithin asked leftContext.merged template =
          resolver.resolveWithin asked rightContext.merged template :=
      resolveWithin_congr template fun text inside => resolveText_congr (own inside)
    simp only [resolveDeep, leftLoads, rightLoads, Outcome.ok_bind, same]
  · exact fun text inside => preview_congr leftLoads rightLoads (own inside)
  · exact fun text inside => unresolvedPaths_congr leftLoads rightLoads (own inside)
  · exact fun text inside => evaluate_congr leftLoads rightLoads (own inside)

/-- A value that looks like a reference does not give away what it would refer to. -/
theorem noninterference_secret :
    default.Indistinguishable
      (.list [.text "{{a}}", .map [(.text "{{secret}}", .text "{{b|default:x}} {{ a.c }}")]])
      (.live ⟨[], [("a", .text "{{secret}}"), ("secret", .text "x")], []⟩)
      (.live ⟨[("secret", .int 7)], [], [("a", .text "{{secret}}")]⟩) := by
  refine noninterference rfl rfl fun name named => ?_
  have roots : name ∈ ["a", "b", "a"] := named
  simp only [List.mem_cons, List.not_mem_nil, or_false] at roots
  rcases roots with rfl | rfl | rfl <;> rfl

end Resolver
end Stencil
