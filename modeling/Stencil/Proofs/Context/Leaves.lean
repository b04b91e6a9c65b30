import Mathlib.Data.List.Nodup
import Stencil.Context.Lookup
import Stencil.Proofs.Template.Plain

/-!
# The paths that a context lists

A walk through the maps of a context lists a path for each leaf (`Value.leafPaths_eq`). Where every
key is a plain name, the paths are distinct and each leads back to its leaf. No other keys will do:
over keys of any other kind there are contexts that list a path that leads nowhere
(`Context.leavesLead_iff`).
-/

namespace Stencil

open Outcome Stencil.Path

namespace Value

/-- Whether a key is a text that stands for itself when it is read as a path. -/
def IsPlainKey (key : Value) : Prop :=
  ∃ name, key = .text name ∧ IsPlain name

/-- The text of a key that is one. -/
def keyText (key : Value) : String :=
  key.text?.getD ""

/-- A tree of maps with keys of some kind, none of them twice in a map. -/
inductive IsTree (allowed : Value → Prop) : Value → Prop
  | leaf {value : Value} (single : value.isMap = false) : IsTree allowed value
  | map {entries : List (Value × Value)} (keys : ∀ entry ∈ entries, allowed entry.1)
    (distinct : entries.Pairwise fun first second => sameKey first.1 second.1 = false)
    (branches : ∀ entry ∈ entries, IsTree allowed entry.2) : IsTree allowed (.map entries)

theorem IsTree.mono {allowed wider : Value → Prop} (more : ∀ key, allowed key → wider key)
    {value : Value} (tree : value.IsTree allowed) : value.IsTree wider := by
  induction tree with
  | leaf single => exact .leaf single
  | map keys distinct branches ih =>
    exact .map (fun entry member => more _ (keys entry member)) distinct ih

/-- The keys of a tree are among those allowed. -/
theorem IsTree.allows {allowed : Value → Prop} {entries : List (Value × Value)}
    (tree : (Value.map entries).IsTree allowed) : ∀ entry ∈ entries, allowed entry.1 := by
  cases tree with
  | leaf single => cases single
  | map keys _ _ => exact keys

/-- A single entry with an allowed key over a tree is a tree. -/
theorem isTree_singleton {allowed : Value → Prop} {key value : Value} (allows : allowed key)
    (branch : value.IsTree allowed) : (Value.map [(key, value)]).IsTree allowed := by
  refine .map ?_ (List.pairwise_singleton _ _) ?_
  · simpa using allows
  · simpa using branch

mutual

/-- What the maps in a value lead to, each behind the keys that lead there. -/
def leaves : Value → List (List Value × Value)
  | .map entries => leavesIn entries
  | value => [([], value)]

/-- The leaves below the entries of a map, with the keys leading to them. -/
def leavesIn : List (Value × Value) → List (List Value × Value)
  | [] => []
  | (key, value) :: rest =>
    (value.leaves.map fun leaf => (key :: leaf.1, leaf.2)) ++ leavesIn rest

end

/-- The leaves of a map are those of its values, led by its keys. -/
theorem leaves_map (entries : List (Value × Value)) :
    (Value.map entries).leaves =
      entries.flatMap fun entry => entry.2.leaves.map fun leaf => (entry.1 :: leaf.1, leaf.2) := by
  rw [leaves]
  induction entries with
  | nil => rfl
  | cons entry rest ih => rw [leavesIn, ih, List.flatMap_cons]

/-- A value that is no map is its own leaf. -/
theorem leaves_of_not_isMap {value : Value} (single : value.isMap = false) :
    value.leaves = [([], value)] := by
  cases value with
  | map entries => cases single
  | _ => rfl

/-- A value that is no map is listed by the path leading to it. -/
theorem leafPaths_of_not_isMap {value : Value} (single : value.isMap = false) (path : String) :
    value.leafPaths path = .ok [path] := by
  cases value with
  | map entries => cases single
  | _ => rfl

/-- The paths of entries are listed one entry after the other if none of them fails. -/
theorem leafPathsIn_eq {path : String} {entries : List (Value × Value)}
    {below : Value × Value → List String}
    (listed : ∀ entry ∈ entries, ∃ label, entry.1.label = .ok label ∧
      entry.2.leafPaths (joinPath path label) = .ok (below entry)) :
    leafPathsIn path entries = .ok (entries.flatMap below) := by
  induction entries with
  | nil => rfl
  | cons entry rest ih =>
    rw [List.forall_mem_cons] at listed
    obtain ⟨⟨label, labelled, here⟩, behind⟩ := listed
    rw [leafPathsIn, labelled, ok_bind, here, ok_bind, ih behind]
    rfl

/-- Each leaf of a tree is listed under the names that lead to it. -/
theorem leafPaths_eq {value : Value} (tree : value.IsTree IsPlainKey) (names : List String) :
    value.leafPaths (joined names) =
      .ok (value.leaves.map fun leaf => joined (names ++ leaf.1.map keyText)) := by
  induction tree generalizing names with
  | leaf single =>
    rw [leafPaths_of_not_isMap single, leaves_of_not_isMap single]
    simp
  | @map entries keys distinct branches ih =>
    rw [leaves_map, List.map_flatMap]
    refine leafPathsIn_eq fun entry member => ?_
    obtain ⟨name, same, -⟩ := keys entry member
    refine ⟨name, by rw [same]; rfl, ?_⟩
    rw [← joined_append, ih entry member, List.map_map, same]
    simp [keyText, text?, Function.comp_def]

/-- The keys leading to a leaf are plain if the value is a tree over plain keys. -/
theorem plain_of_mem_leaves {value : Value} (tree : value.IsTree IsPlainKey)
    {leaf : List Value × Value} (member : leaf ∈ value.leaves) :
    ∀ key ∈ leaf.1, key.IsPlainKey := by
  induction tree generalizing leaf with
  | leaf single =>
    rw [leaves_of_not_isMap single, List.mem_singleton] at member
    simp [member]
  | map keys distinct branches ih =>
    rw [leaves_map] at member
    obtain ⟨entry, inside, below⟩ := List.mem_flatMap.mp member
    obtain ⟨inner, listed, rfl⟩ := List.mem_map.mp below
    exact List.forall_mem_cons.mpr ⟨keys entry inside, ih entry inside listed⟩

/-- Among distinct keys, the entry of a name is the one found under it. -/
theorem lookupText_of_mem {name : String} {value : Value} {entries : List (Value × Value)}
    (distinct : entries.Pairwise fun first second => sameKey first.1 second.1 = false)
    (member : (.text name, value) ∈ entries) : lookupText name entries = some value := by
  induction entries with
  | nil => cases member
  | cons entry rest ih =>
    obtain ⟨apart, others⟩ := List.pairwise_cons.mp distinct
    rcases List.mem_cons.mp member with rfl | behind
    · exact if_pos rfl
    · have skipped : lookupText name (entry :: rest) = lookupText name rest := by
        obtain ⟨key, first⟩ := entry
        cases key with
        | text other =>
          have differ : other ≠ name := by
            rintro rfl
            have clash := apart _ behind
            simp [sameKey, sameScalar] at clash
          exact if_neg differ
        | _ => rfl
      rw [skipped, ih others behind]

/-- A path of names through a tree leads to the leaf that is listed under them. -/
theorem follow_of_mem_leaves {value : Value} (tree : value.IsTree IsPlainKey)
    {leaf : List Value × Value} (member : leaf ∈ value.leaves) :
    value.follow (ofNames (leaf.1.map keyText)) = .ok leaf.2 := by
  induction tree generalizing leaf with
  | leaf single =>
    rw [leaves_of_not_isMap single, List.mem_singleton] at member
    rw [member]
    rfl
  | @map entries keys distinct branches ih =>
    rw [leaves_map] at member
    obtain ⟨⟨key, value⟩, inside, below⟩ := List.mem_flatMap.mp member
    obtain ⟨inner, listed, rfl⟩ := List.mem_map.mp below
    obtain ⟨name, rfl, -⟩ := keys _ inside
    have step : (Value.map entries).step ⟨name, []⟩ = .ok value := by
      have found := lookupText_of_mem distinct inside
      simp [Value.step, child, isAbsent, found, bind, Except.bind, pure, Except.pure]
    change (Value.map entries).follow (⟨name, []⟩ :: ofNames (inner.1.map keyText)) = _
    rw [follow, step, ok_bind]
    exact ih _ inside listed

/-- No two leaves of a tree are behind the same keys. -/
theorem nodup_leaves {value : Value} (tree : value.IsTree IsPlainKey) :
    (value.leaves.map (·.1)).Nodup := by
  induction tree with
  | leaf single =>
    rw [leaves_of_not_isMap single]
    exact List.nodup_singleton _
  | @map entries keys distinct branches ih =>
    rw [leaves_map, List.map_flatMap, List.nodup_flatMap]
    constructor
    · intro entry member
      have below := (ih entry member).map (List.cons_injective (a := entry.1))
      rwa [List.map_map] at below ⊢
    · refine distinct.imp_of_mem fun {first second} firstIn secondIn apart => ?_
      intro chain inFirst inSecond
      simp only [List.map_map, List.mem_map, Function.comp_apply] at inFirst inSecond
      obtain ⟨inner, -, rfl⟩ := inFirst
      obtain ⟨other, -, same⟩ := inSecond
      obtain ⟨name, named, -⟩ := keys first firstIn
      rw [← (List.cons.inj same).1, (List.cons.inj same).1, named] at apart
      simp [sameKey, sameScalar] at apart

/-- The names of plain keys determine them. -/
theorem map_keyText_injective {keys others : List Value} (plain : ∀ key ∈ keys, key.IsPlainKey)
    (plainOthers : ∀ key ∈ others, key.IsPlainKey)
    (same : keys.map keyText = others.map keyText) : keys = others := by
  have restored {keys : List Value} (plain : ∀ key ∈ keys, key.IsPlainKey) :
      (keys.map keyText).map .text = keys := by
    rw [List.map_map]
    refine (List.map_congr_left fun key member => ?_).trans (List.map_id keys)
    obtain ⟨name, rfl, -⟩ := plain key member
    rfl
  rw [← restored plain, ← restored plainOthers, same]

/-- The names of plain keys are plain. -/
theorem isPlain_of_mem_map_keyText {keys : List Value} (plain : ∀ key ∈ keys, key.IsPlainKey) :
    ∀ name ∈ keys.map keyText, IsPlain name := by
  intro name member
  obtain ⟨key, inside, rfl⟩ := List.mem_map.mp member
  obtain ⟨name, rfl, named⟩ := plain key inside
  exact named

end Value

namespace Context

/-- Whether the maps of a context have keys of some kind and lead to no undefined value. A text with
half a surrogate pair, which no path can be written with, is not among the keys. -/
structure IsOver (allowed : Value → Prop) (context : Context) : Prop where
  tree : (Value.ofFields context.merged).IsTree fun key => allowed key ∧ key.halved? = none
  defined : ∀ leaf ∈ (Value.ofFields context.merged).leaves, leaf.2.isUndefined = false

/-- Whether a context lists paths, none of them twice, and each leads to a value. -/
def LeavesLead (context : Context) : Prop :=
  ∃ paths, context.leafPaths = .ok paths ∧ paths.Nodup ∧
    ∀ path ∈ paths, ∃ value, context.resolve path = .ok value ∧ value.isUndefined = false

/-- A leaf of a context is what the path of the names that lead to it resolves to. -/
theorem resolve_joined {context : Context}
    (tree : (Value.ofFields context.merged).IsTree Value.IsPlainKey) {leaf : List Value × Value}
    (member : leaf ∈ (Value.ofFields context.merged).leaves) :
    context.resolve (joined (leaf.1.map Value.keyText)) = .ok leaf.2 := by
  have plain := Value.isPlain_of_mem_map_keyText (Value.plain_of_mem_leaves tree member)
  have filled : (ofNames (leaf.1.map Value.keyText)).isEmpty = false := by
    rw [Value.ofFields, Value.leaves_map] at member
    obtain ⟨entry, -, below⟩ := List.mem_flatMap.mp member
    obtain ⟨inner, -, rfl⟩ := List.mem_map.mp below
    rfl
  rw [Context.resolve, parse_joined plain, ok_bind, lookup, filled]
  exact Value.follow_of_mem_leaves tree member

/-- Over plain names every path that is listed leads to a value. -/
theorem leavesLead_of_plain {context : Context} (made : context.IsOver Value.IsPlainKey) :
    context.LeavesLead := by
  have tree : (Value.ofFields context.merged).IsTree Value.IsPlainKey :=
    made.tree.mono fun key both => both.1
  have listed := Value.leafPaths_eq tree []
  have paths : (Value.ofFields context.merged).leaves.map
      (fun leaf => joined ([] ++ leaf.1.map Value.keyText)) =
        ((Value.ofFields context.merged).leaves.map (·.1)).map
          fun keys => joined (keys.map Value.keyText) := by
    rw [List.map_map]
    rfl
  rw [paths] at listed
  refine ⟨_, listed, ?_, ?_⟩
  · refine List.Nodup.map_on (fun first firstIn second secondIn same => ?_)
      (Value.nodup_leaves tree)
    obtain ⟨leaf, leafIn, rfl⟩ := List.mem_map.mp firstIn
    obtain ⟨other, otherIn, rfl⟩ := List.mem_map.mp secondIn
    have plain := Value.plain_of_mem_leaves tree leafIn
    have plainOther := Value.plain_of_mem_leaves tree otherIn
    exact Value.map_keyText_injective plain plainOther
      (joined_injective (Value.isPlain_of_mem_map_keyText plain)
        (Value.isPlain_of_mem_map_keyText plainOther) same)
  · rw [← paths]
    intro path member
    obtain ⟨leaf, leafIn, rfl⟩ := List.mem_map.mp member
    exact ⟨leaf.2, resolve_joined tree leafIn, made.defined leaf leafIn⟩

end Context

namespace Value

/-- What is undefined has no items. -/
theorem foldl_item_undefined (indices : List Nat) : indices.foldl item .undefined = .undefined := by
  induction indices with
  | nil => rfl
  | cons index rest ih => exact ih

/-- Indices lead from a map to itself, if there are none, or to nothing. -/
theorem foldl_item_map (indices : List Nat) (entries : List (Value × Value)) :
    indices.foldl item (.map entries) = .map entries ∨
      indices.foldl item (.map entries) = .undefined := by
  cases indices with
  | nil => exact .inl rfl
  | cons index rest => exact .inr (foldl_item_undefined rest)

/-- Nothing is found behind what is undefined. -/
theorem follow_undefined (path : Path) : Value.undefined.follow path = .ok .undefined := by
  induction path with
  | nil => rfl
  | cons segment rest ih => exact ih

/-- A path with a name leads nowhere from a map without text keys. -/
theorem follow_of_not_text {key value : Value} (other : ∀ name, key ≠ .text name)
    (segment : Segment) (rest : Path) :
    (Value.map [(key, value)]).follow (segment :: rest) = .ok .undefined := by
  have absent : lookupText segment.name [(key, value)] = none := by
    cases key with
    | text name => exact absurd rfl (other name)
    | _ => rfl
  have step : (Value.map [(key, value)]).step segment = .ok .undefined := by
    simp [Value.step, isAbsent, child, absent, foldl_item_undefined, bind, Except.bind, pure,
      Except.pure]
  rw [follow, step, ok_bind, follow_undefined]

end Value

namespace Context

/-- In a single entry, a path is followed if it begins with the name of that entry. -/
theorem lookup_singleton (segment : Segment) (rest : Path) (name : String) (value : Value) :
    lookup (segment :: rest) [(name, value)] =
      if segment.name = name then (segment.indices.foldl Value.item value).follow rest
      else .ok .undefined := by
  rw [lookup_cons, Fields.get?_cons]
  by_cases same : segment.name = name
  · rw [if_pos same, if_pos same]
    rfl
  · rw [if_neg same, if_neg same]
    change (segment.indices.foldl Value.item .undefined).follow rest = _
    rw [Value.foldl_item_undefined, Value.follow_undefined]

/-- The path that a single variable is listed under leads nowhere if its name is not plain. -/
theorem isPlain_of_leavesLead {name : String}
    (leads : (Context.mk [] [(name, .null)] []).LeavesLead) : IsPlain name := by
  obtain ⟨paths, listed, -, lead⟩ := leads
  obtain rfl : [name] = paths := Except.ok.inj listed
  obtain ⟨value, resolved, defined⟩ := lead name (List.mem_singleton_self name)
  obtain ⟨path, read, found⟩ := bind_eq_ok.mp resolved
  cases path with
  | nil =>
    cases found
    cases defined
  | cons segment rest =>
    by_cases first : segment.name = name
    · exact (isPart_of_parse read first).isPlain
    · have nothing := (lookup_singleton segment rest name .null).trans (if_neg first)
      cases nothing.symm.trans found
      cases defined

/-- Below a variable only text keys are found again. -/
theorem exists_text_of_leavesLead {name : String} {key : Value} (named : name ≠ "")
    (leads : (Context.mk [] [(name, .map [(key, .null)])] []).LeavesLead) :
    ∃ text, key = .text text := by
  by_contra other
  rw [not_exists] at other
  obtain ⟨paths, listed, -, lead⟩ := leads
  obtain ⟨label, rfl⟩ : ∃ label, [joinPath name label] = paths := by
    obtain ⟨top, labelled, rest⟩ := bind_eq_ok.mp listed
    cases labelled
    obtain ⟨below, inside, last⟩ := bind_eq_ok.mp rest
    obtain ⟨label, -, listedThere⟩ := bind_eq_ok.mp inside
    cases listedThere
    exact ⟨label, Except.ok.inj last⟩
  obtain ⟨value, resolved, defined⟩ := lead _ (List.mem_singleton_self _)
  obtain ⟨path, read, found⟩ := bind_eq_ok.mp resolved
  have nothing : lookup path [(name, .map [(key, .null)])] = .ok .undefined := by
    obtain ⟨segment, next, rest, rfl⟩ := exists_cons_cons_of_parse read
      (by simp [joinPath_of_ne_empty named])
    rw [lookup_singleton]
    split
    · rcases Value.foldl_item_map segment.indices [(key, .null)] with same | none
      · rw [same]
        exact Value.follow_of_not_text other next rest
      · rw [none]
        exact Value.follow_undefined _
    · rfl
  cases nothing.symm.trans found
  cases defined

/-- **Which contexts list only paths that lead somewhere.** Every context whose keys are of some
kind does exactly if these are plain names: texts that are read as themselves. Nothing is asked of
keys if no text is among them, for then there is no context but the empty one. -/
theorem leavesLead_iff (allowed : Value → Prop) :
    (∀ context : Context, context.IsOver allowed → context.LeavesLead) ↔
      ∀ name key, allowed (.text name) → allowed key → key.halved? = none → key.IsPlainKey := by
  constructor
  · intro lead name key nameAllowed keyAllowed whole
    have single {name : String} (allows : allowed (.text name)) : IsPlain name := by
      refine isPlain_of_leavesLead
        (lead _ ⟨Value.isTree_singleton ⟨allows, rfl⟩ (.leaf rfl), ?_⟩)
      intro leaf member
      rw [List.mem_singleton.mp member]
      rfl
    have named := single nameAllowed
    obtain ⟨text, rfl⟩ : ∃ text, key = .text text := by
      have branch : (Value.map [(key, .null)]).IsTree fun key => allowed key ∧ key.halved? = none :=
        Value.isTree_singleton ⟨keyAllowed, whole⟩ (.leaf rfl)
      refine exists_text_of_leavesLead (isPlain_iff.mp named).filled
        (lead _ ⟨Value.isTree_singleton ⟨nameAllowed, rfl⟩ branch, ?_⟩)
      intro leaf member
      rw [List.mem_singleton.mp member]
      rfl
    exact ⟨text, rfl, single keyAllowed⟩
  · intro plain context made
    refine leavesLead_of_plain ⟨?_, made.defined⟩
    have tree := made.tree
    cases values : context.merged with
    | nil => exact .map (fun _ => nofun) .nil (fun _ => nofun)
    | cons entry rest =>
      rw [values] at tree
      have top := tree.allows _ List.mem_cons_self
      exact tree.mono fun key both => ⟨plain entry.1 key top.1 both.1 both.2, both.2⟩

/-- Over identifiers every path that is listed leads to a value. -/
theorem leavesLead_iff_identifiers :
    ∀ context : Context,
      (context.IsOver fun key => ∃ name, key = .text name ∧ isIdentifier name.toList = true) →
      context.LeavesLead := by
  refine (leavesLead_iff _).mpr fun name key _ identifier _ => ?_
  obtain ⟨text, same, made⟩ := identifier
  exact ⟨text, same, isPlain_of_isIdentifier made⟩

/-- A name with a point is listed and leads nowhere, and it is listed once more where maps lead by
the same names. -/
theorem leavesLead_pointed :
    let pointed : Context := ⟨[], [("a.b", .int 1)], []⟩
    let shared : Context := ⟨[], [("a.b", .int 1), ("a", .map [(.text "b", .int 2)])], []⟩
    pointed.IsOver (fun key => key.text?.isSome) ∧ ¬ pointed.LeavesLead ∧
      shared.IsOver (fun key => key.text?.isSome) ∧ shared.leafPaths = .ok ["a.b", "a.b"] := by
  intro pointed shared
  have branch : (Value.map [(.text "b", .int 2)]).IsTree
      fun key => key.text?.isSome ∧ key.halved? = none :=
    Value.isTree_singleton ⟨rfl, rfl⟩ (.leaf rfl)
  refine ⟨⟨Value.isTree_singleton ⟨rfl, rfl⟩ (.leaf rfl), ?_⟩, ?_, ⟨.map ?_ ?_ ?_, ?_⟩, rfl⟩
  · exact List.forall_mem_singleton.mpr rfl
  · rintro ⟨paths, listed, -, lead⟩
    obtain rfl : ["a.b"] = paths := Except.ok.inj listed
    obtain ⟨value, resolved, defined⟩ := lead "a.b" (List.mem_singleton_self _)
    cases resolved
    cases defined
  · exact List.forall_mem_cons.mpr ⟨⟨rfl, rfl⟩, List.forall_mem_singleton.mpr ⟨rfl, rfl⟩⟩
  · exact List.pairwise_pair.mpr rfl
  · exact List.forall_mem_cons.mpr ⟨.leaf rfl, List.forall_mem_singleton.mpr branch⟩
  · exact List.forall_mem_cons.mpr ⟨rfl, List.forall_mem_singleton.mpr rfl⟩

end Context
end Stencil
