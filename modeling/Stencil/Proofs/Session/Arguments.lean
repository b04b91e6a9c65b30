import Stencil.Proofs.Resolve.Leafwise
import Stencil.Proofs.Session.Loads

/-!
# Arguments of a call

A call names a policy, or none, and gives a context. An operation that checks its arguments before
anything else (`Resolver.checked`) refuses a name of no policy and a value that is no context. Whole
values are resolved so, but a text without a pair of opening braces is handed back before its
arguments are looked at. The main statement is `Session.refusesArguments_iff`: bad arguments are
refused with the texts that have braces only, and one call with a text ends as with the whole value
exactly if the text has braces or the arguments can be used. `Session.not_refusesArguments_plain` is
a text with which bad arguments pass.
-/

namespace Stencil

open Outcome

namespace Policy

/-- No policy is named, or one that there is. -/
def IsChoice (name : Option String) : Prop :=
  ∀ given ∈ name, ∃ policy : Policy, policy.name = given

variable {configured : Policy} {name : Option String} {given : String}

/-- A policy is found by its name. -/
theorem ofName_name (policy : Policy) : ofName policy.name = .ok policy := by
  cases policy <;> rfl

/-- A name of no policy is refused as no choice. -/
theorem ofName_of_not_exists (unknown : ¬∃ policy : Policy, policy.name = given) :
    ofName given = .error (.notChoice given "OnUnresolved") := by
  have none : ofName? given = none :=
    List.find?_eq_none.mpr fun policy _ same => unknown ⟨policy, beq_iff_eq.mp same⟩
  rw [ofName, none]

/-- A policy is chosen if and only if the given name is a choice. -/
theorem chosen_succeeds_iff : Succeeds (configured.chosen name) ↔ IsChoice name := by
  cases name with
  | none => exact iff_of_true (succeeds_ok configured) nofun
  | some given =>
    rw [chosen]
    by_cases known : ∃ policy : Policy, policy.name = given
    · refine iff_of_true ?_ fun other same => Option.some.inj same ▸ known
      obtain ⟨policy, rfl⟩ := known
      exact ⟨policy, ofName_name policy⟩
    · rw [ofName_of_not_exists known]
      exact iff_of_false (not_succeeds_error _) fun choice => known (choice given rfl)

end Policy

/-- A value whose entries are no layers is rejected for all that is wrong with them. -/
theorem Context.ofValue_of_check_eq_error {value : Value} {entries : List (Value × Value)}
    {problems : List Problem} (read : value.entries = .ok entries)
    (rejected : check entries = .error problems) : ofValue value = .error (.invalid problems) := by
  have checked : (value.entries >>= fun entries => (check entries).outcome) =
      .error (.invalid problems) := by
    rw [read, ok_bind, rejected, Checked.outcome]
  cases value with
  | null => cases read
  | _ => exact checked

/-- An operation ends with a fault for a name of no policy, whatever the context. -/
def RefusesNames {α : Type} (operation : Context.Source → Option String → Outcome α) : Prop :=
  ∀ source given, (¬∃ policy : Policy, policy.name = given) →
    operation source (some given) = .error (.notChoice given "OnUnresolved")

/-- Where the policy is a choice, an operation ends with a fault for a value that is rejected as a
context, and tells all that is wrong with it. -/
def RefusesContexts {α : Type} (operation : Context.Source → Option String → Outcome α) : Prop :=
  ∀ value entries problems name, value.entries = .ok entries →
    Context.check entries = .error problems → Policy.IsChoice name →
      operation (.given value) name = .error (.invalid problems)

/-- The arguments of a call can be used: the policy is a choice and the context is one. -/
structure Context.Source.Usable (source : Context.Source) (name : Option String) : Prop where
  choice : Policy.IsChoice name
  loads : Succeeds source.load

namespace Resolver

variable {α : Type} {resolver : Resolver} {body : Policy → Fields Value → Outcome α}
  {source : Context.Source} {name : Option String} {text : String}

/-- An operation under a policy, among the values of a context, that checks its arguments first. -/
def checked (resolver : Resolver) (body : Policy → Fields Value → Outcome α)
    (source : Context.Source) (name : Option String) : Outcome α := do
  let policy ← resolver.policy.chosen name
  body policy (← source.load).merged

/-- What checks its arguments refuses wrong names of policies. -/
theorem refusesNames_checked (resolver : Resolver) (body : Policy → Fields Value → Outcome α) :
    RefusesNames (resolver.checked body) := by
  intro source given unknown
  rw [checked, Policy.chosen, Policy.ofName_of_not_exists unknown]
  rfl

/-- What checks its arguments refuses wrong contexts. -/
theorem refusesContexts_checked (resolver : Resolver) (body : Policy → Fields Value → Outcome α) :
    RefusesContexts (resolver.checked body) := by
  intro value entries problems name read rejected choice
  obtain ⟨policy, chosen⟩ := Policy.chosen_succeeds_iff.mpr choice
  rw [checked, chosen, ok_bind, Context.Source.load,
    Context.ofValue_of_check_eq_error read rejected]
  rfl

/-- What succeeds after checking its arguments was given usable ones. -/
theorem usable_of_checked (succeeds : Succeeds (resolver.checked body source name)) :
    source.Usable name := by
  obtain ⟨policy, chosen, rest⟩ := succeeds_bind_iff.mp succeeds
  obtain ⟨context, loads, -⟩ := succeeds_bind_iff.mp rest
  exact ⟨Policy.chosen_succeeds_iff.mp ⟨policy, chosen⟩, context, loads⟩

/-- A checked body can be mapped before or after the check. -/
theorem checked_map {β : Type} (image : α → β) :
    resolver.checked (fun policy values => do return image (← body policy values)) source name =
      (do return image (← resolver.checked body source name)) := by
  simp only [checked, bind_assoc]

/-- Resolving a nested template is checking the arguments and resolving within. -/
theorem resolveDeep_eq_checked (template : Value) : resolver.resolveDeep template =
    resolver.checked fun policy values => resolver.resolveWithin policy values template :=
  rfl

/-- A text resolved by the whole pass, whether it holds braces or not. -/
def resolveThroughout (resolver : Resolver) (text : String) :
    Context.Source → Option String → Outcome Resolution :=
  resolver.checked fun policy values => resolveText resolver.registry policy values text

/-- A text with braces is resolved throughout. -/
theorem resolve_of_holdsBraces (braces : holdsBraces text = true) :
    resolver.resolve (.text text) source name = resolver.resolveThroughout text source name :=
  if_pos braces

/-- A text without braces is given back, whatever the arguments. -/
theorem resolve_of_not_holdsBraces (plain : holdsBraces text = false) :
    resolver.resolve (.text text) source name = .ok ⟨.text text, true, [], []⟩ :=
  if_neg (Bool.not_eq_true _ ▸ plain)

/-- With usable arguments, every text is resolved throughout. -/
theorem resolve_of_usable (usable : source.Usable name) :
    resolver.resolve (.text text) source name = resolver.resolveThroughout text source name := by
  obtain ⟨policy, chosen⟩ := Policy.chosen_succeeds_iff.mpr usable.choice
  obtain ⟨context, loads⟩ := usable.loads
  rw [resolve_text loads chosen, resolveThroughout, checked, chosen, ok_bind, loads, ok_bind]

/-- The whole pass is taken where there are braces, and where the arguments can be used it finds
nothing to do in a text without them. -/
theorem resolve_eq_resolveThroughout (either : holdsBraces text = true ∨ source.Usable name) :
    resolver.resolve (.text text) source name = resolver.resolveThroughout text source name :=
  either.elim resolve_of_holdsBraces resolve_of_usable

/-- A text without braces succeeds whatever its arguments are, the whole pass only if they can be
used. -/
theorem holdsBraces_or_usable (alike : Succeeds (resolver.resolve (.text text) source name) ↔
      Succeeds (resolver.resolveThroughout text source name)) :
    holdsBraces text = true ∨ source.Usable name := by
  cases braces : holdsBraces text with
  | true => exact .inl rfl
  | false =>
    have succeeds : Succeeds (resolver.resolve (.text text) source name) :=
      ⟨_, resolve_of_not_holdsBraces braces⟩
    exact .inr (usable_of_checked (alike.mp succeeds))

/-- A text is resolved throughout if and only if it has braces or the arguments are usable. -/
theorem resolve_eq_resolveThroughout_iff :
    resolver.resolve (.text text) source name = resolver.resolveThroughout text source name ↔
      holdsBraces text = true ∨ source.Usable name :=
  ⟨fun same => holdsBraces_or_usable (iff_of_eq (congrArg Succeeds same)),
    resolve_eq_resolveThroughout⟩

/-- A text as a whole value is resolved by the whole pass. -/
theorem resolveDeep_text : resolver.resolveDeep (.text text) source name =
    (do return (← resolver.resolveThroughout text source name).value) := by
  rw [resolveThroughout, ← checked_map, resolveDeep_eq_checked]
  simp only [resolveWithin]

/-- The list of a single value is resolved to the list of what the value is resolved to. -/
theorem resolveDeep_singleton (item : Value) : resolver.resolveDeep (.list [item]) source name =
    (do return .list [← resolver.resolveDeep item source name]) := by
  rw [resolveDeep_eq_checked, resolveDeep_eq_checked, ← checked_map]
  simp only [resolveWithin, resolveItems, bind_assoc, pure_bind]
  rfl

/-- A text is resolved like a nested template if and only if it has braces or the arguments are
usable. -/
theorem resolvedText_eq_resolveDeep_iff :
    resolver.resolvedText source name text = resolver.resolveDeep (.text text) source name ↔
      holdsBraces text = true ∨ source.Usable name := by
  rw [resolveDeep_text, resolvedText]
  constructor
  · intro same
    have alike := iff_of_eq (congrArg Succeeds same)
    rw [succeeds_map_iff, succeeds_map_iff] at alike
    exact holdsBraces_or_usable alike
  · intro either
    rw [resolve_eq_resolveThroughout either]

/-- Nested templates refuse wrong names of policies. -/
theorem refusesNames_resolveDeep (resolver : Resolver) (template : Value) :
    RefusesNames (resolver.resolveDeep template) := by
  rw [resolveDeep_eq_checked]
  exact resolver.refusesNames_checked _

/-- Nested templates refuse wrong contexts. -/
theorem refusesContexts_resolveDeep (resolver : Resolver) (template : Value) :
    RefusesContexts (resolver.resolveDeep template) := by
  rw [resolveDeep_eq_checked]
  exact resolver.refusesContexts_checked _

/-- A text with braces is resolved like a nested template. -/
theorem resolvedText_of_holdsBraces (braces : holdsBraces text = true) :
    (resolver.resolvedText · · text) = resolver.resolveDeep (.text text) := by
  funext source name
  exact resolvedText_eq_resolveDeep_iff.mpr (.inl braces)

/-- Only a text with braces can fail. -/
theorem holdsBraces_of_resolvedText_eq_error {fault : Fault}
    (failed : resolver.resolvedText source name text = .error fault) : holdsBraces text = true := by
  by_contra plain
  rw [resolvedText, resolve_of_not_holdsBraces (Bool.not_eq_true _ ▸ plain)] at failed
  cases failed

/-- A text refuses wrong names of policies if and only if it has braces. -/
theorem refusesNames_resolvedText_iff :
    RefusesNames (resolver.resolvedText · · text) ↔ holdsBraces text = true := by
  constructor
  · intro refuses
    have unknown : ¬∃ policy : Policy, policy.name = "" := by
      rintro ⟨policy, same⟩
      cases policy <;> exact absurd same (by decide)
    exact holdsBraces_of_resolvedText_eq_error (refuses (.live .empty) "" unknown)
  · intro braces
    rw [resolvedText_of_holdsBraces braces]
    exact resolver.refusesNames_resolveDeep _

/-- A text refuses wrong contexts if and only if it has braces. -/
theorem refusesContexts_resolvedText_iff :
    RefusesContexts (resolver.resolvedText · · text) ↔ holdsBraces text = true := by
  constructor
  · intro refuses
    -- a layer that is null is no map
    exact holdsBraces_of_resolvedText_eq_error
      (refuses (.map [(.text "variables", .null)]) _ _ none rfl rfl nofun)
  · intro braces
    rw [resolvedText_of_holdsBraces braces]
    exact resolver.refusesContexts_resolveDeep _

end Resolver

namespace Session

variable {session : Session} {source : Context.Source} {name : Option String} {text : String}

/-- A request whose result is put into a success says so exactly if there is a result. -/
theorem saysSuccess_answerOf_iff {α : Type} {outcome : Outcome α} {further : α → Fields Value} :
    saysSuccess (answerOf (do return successValue (further (← outcome)))) = true ↔
      Succeeds outcome := by
  cases outcome with
  | ok result => exact iff_of_true rfl (succeeds_ok result)
  | error fault =>
    refine iff_of_false ?_ (not_succeeds_error fault)
    cases fault <;> exact Bool.false_ne_true

/-- A session answers a text with success if and only if the text is resolved. -/
theorem saysSuccess_text_iff :
    saysSuccess (session.resolveTemplate (.text text) source name) = true ↔
      Succeeds (session.resolver.resolve (.text text) source name) :=
  saysSuccess_answerOf_iff

/-- A session answers a list of one text with success if and only if the text is resolved
throughout. -/
theorem saysSuccess_singleton_iff :
    saysSuccess (session.resolveTemplate (.list [.text text]) source name) = true ↔
      Succeeds (session.resolver.resolveThroughout text source name) := by
  refine saysSuccess_answerOf_iff.trans ?_
  rw [Resolver.resolveDeep_singleton, succeeds_map_iff, Resolver.resolveDeep_text, succeeds_map_iff]

/-- A text and a list of it are answered alike if and only if braces or usable arguments are given.
-/
theorem saysSuccess_alike_iff :
    saysSuccess (session.resolveTemplate (.text text) source name) =
        saysSuccess (session.resolveTemplate (.list [.text text]) source name) ↔
      holdsBraces text = true ∨ source.Usable name := by
  rw [Bool.eq_iff_iff, saysSuccess_text_iff, saysSuccess_singleton_iff]
  refine ⟨Resolver.holdsBraces_or_usable, fun either => ?_⟩
  rw [Resolver.resolve_eq_resolveThroughout either]

/-- **When bad arguments are refused.** With a text as a whole value, names of no policy and values
that are no contexts are always refused. With the text by itself the names are, and so are the
values, exactly if it holds a pair of opening braces. Call by call, the shortcut for other texts is
not to be told from the whole pass, the text ends as the whole value does, and the request for the
text fails where the one for the list of it does, in each case exactly if the text holds braces or
the arguments can be used. -/
theorem refusesArguments_iff (session : Session) (text : String) :
    RefusesNames (session.resolver.resolveDeep (.text text)) ∧
    RefusesContexts (session.resolver.resolveDeep (.text text)) ∧
    (RefusesNames (session.resolver.resolvedText · · text) ↔ holdsBraces text = true) ∧
    (RefusesContexts (session.resolver.resolvedText · · text) ↔ holdsBraces text = true) ∧
    ∀ source name,
      (session.resolver.resolve (.text text) source name =
          session.resolver.resolveThroughout text source name ↔
        holdsBraces text = true ∨ source.Usable name) ∧
      (session.resolver.resolvedText source name text =
          session.resolver.resolveDeep (.text text) source name ↔
        holdsBraces text = true ∨ source.Usable name) ∧
      (saysSuccess (session.resolveTemplate (.text text) source name) =
          saysSuccess (session.resolveTemplate (.list [.text text]) source name) ↔
        holdsBraces text = true ∨ source.Usable name) := by
  refine ⟨session.resolver.refusesNames_resolveDeep _,
    session.resolver.refusesContexts_resolveDeep _, Resolver.refusesNames_resolvedText_iff,
    Resolver.refusesContexts_resolvedText_iff, fun source name => ?_⟩
  exact ⟨Resolver.resolve_eq_resolveThroughout_iff, Resolver.resolvedText_eq_resolveDeep_iff,
    saysSuccess_alike_iff⟩

/-- A text without braces under a name of no policy, and in a context with a layer that is no
map. -/
theorem not_refusesArguments_plain :
    let session : Session := ⟨Resolver.default, .empty⟩
    let layered : Context.Source := .given (.map [(.text "variables", .int 1)])
    ¬RefusesNames (session.resolver.resolvedText · · "hello") ∧
      ¬RefusesContexts (session.resolver.resolvedText · · "hello") ∧
      session.resolver.resolvedText (.live .empty) (some "ignore") "hello" = .ok (.text "hello") ∧
      session.resolver.resolveDeep (.text "hello") (.live .empty) (some "ignore") =
        .error (.notChoice "ignore" "OnUnresolved") ∧
      session.resolver.resolvedText layered none "hello" = .ok (.text "hello") ∧
      session.resolver.resolveDeep (.text "hello") layered none =
        .error (.invalid [⟨["variables"], .notMap⟩]) ∧
      saysSuccess (session.resolveTemplate (.text "hello") layered none) = true ∧
      saysSuccess (session.resolveTemplate (.list [.text "hello"]) layered none) = false := by
  intro session layered
  have plain : ¬holdsBraces "hello" = true := by decide
  refine ⟨fun refuses => plain ?_, fun refuses => plain ?_, rfl, rfl, rfl, rfl, rfl, rfl⟩
  · exact Resolver.refusesNames_resolvedText_iff.mp refuses
  · exact Resolver.refusesContexts_resolvedText_iff.mp refuses

end Session

end Stencil
