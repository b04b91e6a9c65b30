import Mathlib.Data.List.Forall2
import Stencil.Proofs.Resolve.Deep
import Stencil.Proofs.Resolve.Template

/-!
# Values resolved text by text

Resolving a whole value goes through it once, with the layers of the context laid over each other
once. It comes to the same as resolving every text in it on its own: the result is the value with
each text replaced (`Value.LeafImage`), and the first text that is not resolved ends it with its
own fault. The main statement is `resolveDeep_leafwise`.
-/

namespace Stencil

open Outcome

namespace Value

/-- Whether nothing in a value is a template: it is no text and is not gone through. -/
def isFixed : Value → Bool
  | .text _ | .list _ | .tuple _ | .map _ => false
  | _ => true

/-- A value is another one with every text in it replaced by what a step makes of the text. Lists
and tuples become lists of as many items, maps keep their keys in their order, and all other values
stay as they are. -/
inductive LeafImage (step : String → Outcome Value) : Value → Value → Prop
  | text {s : String} {image : Value} (made : step s = .ok image) : LeafImage step (.text s) image
  | list {items images : List Value} (made : List.Forall₂ (LeafImage step) items images) :
    LeafImage step (.list items) (.list images)
  | tuple {items images : List Value} (made : List.Forall₂ (LeafImage step) items images) :
    LeafImage step (.tuple items) (.list images)
  | map {entries images : List (Value × Value)}
    (keys : images.map (·.1) = entries.map (·.1))
    (made : List.Forall₂ (LeafImage step) (entries.map (·.2)) (images.map (·.2))) :
    LeafImage step (.map entries) (.map images)
  | fixed {value : Value} (kept : value.isFixed = true) : LeafImage step value value

variable {step : String → Outcome Value} {result : Value}

/-- The image of a text is what the step makes of it. -/
theorem leafImage_text_iff {s : String} :
    LeafImage step (.text s) result ↔ step s = .ok result := by
  constructor
  · intro image
    cases image with
    | text made => exact made
    | fixed kept => cases kept
  · exact .text

/-- The image of a list is the list of images. -/
theorem leafImage_list_iff {items : List Value} :
    LeafImage step (.list items) result ↔
      ∃ images, List.Forall₂ (LeafImage step) items images ∧ result = .list images := by
  constructor
  · intro image
    cases image with
    | list made => exact ⟨_, made, rfl⟩
    | fixed kept => cases kept
  · intro image
    obtain ⟨images, made, rfl⟩ := image
    exact .list made

/-- The image of a tuple is the list of images. -/
theorem leafImage_tuple_iff {items : List Value} :
    LeafImage step (.tuple items) result ↔
      ∃ images, List.Forall₂ (LeafImage step) items images ∧ result = .list images := by
  constructor
  · intro image
    cases image with
    | tuple made => exact ⟨_, made, rfl⟩
    | fixed kept => cases kept
  · intro image
    obtain ⟨images, made, rfl⟩ := image
    exact .tuple made

/-- The image of a map has the same keys, with the images of their values. -/
theorem leafImage_map_iff {entries : List (Value × Value)} :
    LeafImage step (.map entries) result ↔
      ∃ images : List (Value × Value), (images.map (·.1) = entries.map (·.1) ∧
        List.Forall₂ (LeafImage step) (entries.map (·.2)) (images.map (·.2))) ∧
        result = .map images := by
  constructor
  · intro image
    cases image with
    | map keys made => exact ⟨_, ⟨keys, made⟩, rfl⟩
    | fixed kept => cases kept
  · intro image
    obtain ⟨images, ⟨keys, made⟩, rfl⟩ := image
    exact .map keys made

/-- Any other value is its own image. -/
theorem leafImage_of_isFixed {value : Value} (kept : value.isFixed = true) :
    LeafImage step value result ↔ result = value := by
  constructor
  · intro image
    cases image with
    | fixed _ => rfl
    | text _ => cases kept
    | list _ => cases kept
    | tuple _ => cases kept
    | map _ _ => cases kept
  · intro same
    rw [same]
    exact .fixed kept

end Value

namespace Resolver

variable {resolver : Resolver} {policy : Policy} {values : Fields Value}

/-- The value that a text becomes where it stands in a whole value. -/
def textValue (resolver : Resolver) (policy : Policy) (values : Fields Value) (text : String) :
    Outcome Value := do
  return (← resolveText resolver.registry policy values text).value

mutual

/-- What a value is resolved to is its image under the resolution of texts. -/
theorem resolveWithin_eq_ok_iff (template : Value) {result : Value} :
    resolver.resolveWithin policy values template = .ok result ↔
      template.LeafImage (resolver.textValue policy values) result := by
  cases template with
  | text s =>
    rw [resolveWithin, Value.leafImage_text_iff]
    rfl
  | list items =>
    rw [resolveWithin, map_eq_ok_iff, Value.leafImage_list_iff]
    exact exists_congr fun images => and_congr_left' (resolveItems_eq_ok_iff items)
  | tuple items =>
    rw [resolveWithin, map_eq_ok_iff, Value.leafImage_tuple_iff]
    exact exists_congr fun images => and_congr_left' (resolveItems_eq_ok_iff items)
  | map entries =>
    rw [resolveWithin, map_eq_ok_iff, Value.leafImage_map_iff]
    exact exists_congr fun images => and_congr_left' (resolveEntries_eq_ok_iff entries)
  | _ =>
    rw [Value.leafImage_of_isFixed rfl]
    exact ⟨fun same => (Except.ok.inj same).symm, fun same => congrArg Except.ok same.symm⟩

/-- Items are resolved leaf by leaf. -/
theorem resolveItems_eq_ok_iff (items : List Value) {images : List Value} :
    resolver.resolveItems policy values items = .ok images ↔
      List.Forall₂ (Value.LeafImage (resolver.textValue policy values)) items images := by
  cases items with
  | nil =>
    rw [List.forall₂_nil_left_iff]
    exact ⟨fun same => (Except.ok.inj same).symm, fun same => congrArg Except.ok same.symm⟩
  | cons item rest =>
    rw [resolveItems, both_eq_ok_iff, List.forall₂_cons_left_iff]
    exact exists_congr fun image => exists_congr fun others => by
      rw [resolveWithin_eq_ok_iff item, resolveItems_eq_ok_iff rest]

/-- Entries are resolved leaf by leaf, under the same keys. -/
theorem resolveEntries_eq_ok_iff (entries : List (Value × Value))
    {images : List (Value × Value)} :
    resolver.resolveEntries policy values entries = .ok images ↔
      images.map (·.1) = entries.map (·.1) ∧
        List.Forall₂ (Value.LeafImage (resolver.textValue policy values))
          (entries.map (·.2)) (images.map (·.2)) := by
  -- The images are taken apart as well, since each key has to be the one that stands at its place.
  match entries, images with
  | [], [] => exact iff_of_true rfl ⟨rfl, .nil⟩
  | [], image :: others =>
    exact iff_of_false (fun resolved => by cases resolved) fun made => by cases made.1
  | (key, value) :: rest, [] =>
    refine iff_of_false (fun resolved => ?_) fun made => by cases made.1
    obtain ⟨image, others, -, -, same⟩ := both_eq_ok_iff.mp resolved
    cases same
  | (key, value) :: rest, (name, image) :: others =>
    simp only [List.map_cons, List.forall₂_cons, List.cons.injEq]
    rw [and_and_and_comm, ← resolveWithin_eq_ok_iff value, ← resolveEntries_eq_ok_iff rest]
    constructor
    · intro resolved
      obtain ⟨_, _, here, behind, same⟩ := both_eq_ok_iff.mp resolved
      cases same
      exact ⟨⟨rfl, here⟩, behind⟩
    · intro resolved
      obtain ⟨⟨same, here⟩, behind⟩ := resolved
      rw [same]
      exact both_eq_ok_iff.mpr ⟨image, others, here, behind, rfl⟩

end

variable {template : Value} {source : Context.Source} {context : Context} {name : Option String}

/-- The value that a text becomes when it is resolved on its own. -/
def resolvedText (resolver : Resolver) (source : Context.Source) (name : Option String)
    (text : String) : Outcome Value := do
  return (← resolver.resolve (.text text) source name).value

/-- With a context and a policy, a text is resolved as one leaf. -/
theorem resolvedText_eq (loads : source.load = .ok context)
    (chosen : resolver.policy.chosen name = .ok policy) :
    resolver.resolvedText source name = resolver.textValue policy context.merged := by
  funext text
  rw [resolvedText, resolve_text loads chosen, textValue]

/-- With a context and a policy, a template is resolved within. -/
theorem resolveDeep_eq (loads : source.load = .ok context)
    (chosen : resolver.policy.chosen name = .ok policy) :
    resolver.resolveDeep template source name =
      resolver.resolveWithin policy context.merged template := by
  rw [resolveDeep, chosen, loads]
  rfl

/-- The first text of a value that is not resolved ends the resolution of the value. -/
theorem resolveDeep_eq_error_iff (loads : source.load = .ok context)
    (chosen : resolver.policy.chosen name = .ok policy) {fault : Fault} :
    resolver.resolveDeep template source name = .error fault ↔
      FailsFirst (fun text => resolver.resolve (.text text) source name) template.texts fault := by
  simp only [resolve_text loads chosen]
  rw [resolveDeep_eq loads chosen, resolveWithin_eq_error_iff]

/-- **A value is resolved leaf by leaf.** The result is the value with each text in it replaced by
what the text is resolved to on its own; and there is a fault exactly if a text has one, namely the
fault of the first such text. -/
theorem resolveDeep_leafwise (loads : source.load = .ok context)
    (chosen : resolver.policy.chosen name = .ok policy) :
    (∀ result, resolver.resolveDeep template source name = .ok result ↔
      template.LeafImage (resolver.resolvedText source name) result) ∧
    ∀ fault, resolver.resolveDeep template source name = .error fault ↔
      FailsFirst (resolver.resolvedText source name) template.texts fault := by
  constructor
  · intro result
    rw [resolveDeep_eq loads chosen, resolvedText_eq loads chosen]
    exact resolveWithin_eq_ok_iff template
  · intro fault
    exact (resolveDeep_eq_error_iff loads chosen).trans failsFirst_map_iff.symm

/-- Keys and sets are no templates, a tuple becomes a list, and of two texts that are refused the
first one is blamed. -/
theorem resolveDeep_leafwise_nested :
    default.resolveDeep
        (.map [(.text "{{a}}", .tuple [.text "{{a}}-{{a}}", .int 3]),
          (.null, .set [.text "{{a}}"])])
        (.live ⟨[], [("a", .text "x")], []⟩) none =
      .ok (.map [(.text "{{a}}", .list [.text "x-x", .int 3]), (.null, .set [.text "{{a}}"])]) ∧
    default.resolveDeep (.list [.text "{{a}}", .map [(.null, .text "{{b}}")], .text "{{c}}"])
        (.live ⟨[], [("a", .text "x")], []⟩) (some "raise") =
      .error (.unresolved ["b"] "{{b}}") := by
  constructor
  · refine ((resolveDeep_leafwise rfl rfl).1 _).mpr (.map rfl ?_)
    exact .cons (.tuple (.cons (.text rfl) (.cons (.fixed rfl) .nil))) (.cons (.fixed rfl) .nil)
  · refine ((resolveDeep_leafwise rfl rfl).2 _).mpr ⟨["{{a}}"], "{{b}}", ["{{c}}"], rfl, ?_, rfl⟩
    intro earlier member
    rw [List.mem_singleton.mp member]
    exact ⟨.text "x", rfl⟩

end Resolver
end Stencil
