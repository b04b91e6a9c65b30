import Mathlib.Data.List.Induction
import Stencil.Proofs.Context.Leaves
import Stencil.Proofs.Fields
import Stencil.Proofs.FirstOccurrence

/-!
# The walk through a context

Names lead from a value through maps to what stands below it (`Value.Leads`), and a walk that takes
the maps entry by entry comes by some of these names before others (`Value.Precedes`). The main
statement is `Context.leafPaths_exact`: over plain names a context lists the names that lead to a
value other than a map, each once, in the order of the walk through its layers laid over each other,
and each path that is listed leads back to this value.
-/

namespace Stencil

open Outcome Stencil.Path

namespace Fields

variable {α : Type} {base upper : Fields α}

theorem keys_append (base upper : Fields α) : keys (base ++ upper) = keys base ++ keys upper :=
  List.map_append

/-- The keys of dictionaries laid over each other are those of both, in the order in which they
appear first. -/
theorem keys_overlay (distinct : (keys base).Nodup) :
    keys (overlay base upper) = (keys base ++ keys upper).eraseDups := by
  induction upper using List.reverseRecOn with
  | nil =>
    rw [overlay, List.foldl_nil, keys, keys, List.map_nil, List.append_nil]
    exact (eraseDups_of_nodup distinct).symm
  | append_singleton upper last ih =>
    have grown : overlay base (upper ++ [last]) = set last.1 last.2 (overlay base upper) := by
      rw [overlay, List.foldl_append]
      rfl
    rw [grown, keys_append, ← List.append_assoc]
    change _ = (keys base ++ keys upper ++ [last.1]).eraseDups
    rw [eraseDups_concat, ← ih]
    split_ifs with known
    · exact keys_set_of_mem _ (mem_keys_overlay.mpr (List.mem_append.mp known))
    · exact keys_set_of_not_mem _ fun member =>
        known (List.mem_append.mpr (mem_keys_overlay.mp member))

end Fields

namespace Value

/-- Names lead from a value through maps to a value below it. -/
inductive Leads : Value → List String → Value → Prop
  | here (value : Value) : Leads value [] value
  | into {entries : List (Value × Value)} {name : String} {child value : Value}
    {names : List String} (entry : (.text name, child) ∈ entries)
    (behind : Leads child names value) : Leads (.map entries) (name :: names) value

/-- A walk through a value comes by some names before it comes by others: in the map where the two
part, the entry of the first ones stands before that of the others. -/
inductive Precedes : Value → List String → List String → Prop
  | apart {entries : List (Value × Value)} {name other : String} {names others : List String}
    (ahead : [.text name, .text other].Sublist (entries.map (·.1))) :
    Precedes (.map entries) (name :: names) (other :: others)
  | within {entries : List (Value × Value)} {name : String} {child : Value}
    {names others : List String} (entry : (.text name, child) ∈ entries)
    (behind : Precedes child names others) :
    Precedes (.map entries) (name :: names) (name :: others)

/-- The names that lead to the leaves of a value, in the order of a walk. -/
def chains (value : Value) : List (List String) :=
  value.leaves.map fun leaf => leaf.1.map keyText

/-- The chains of a map are those of its values, each led by its name. -/
theorem chains_map (entries : List (Value × Value)) :
    (Value.map entries).chains =
      entries.flatMap fun entry => entry.2.chains.map (keyText entry.1 :: ·) := by
  simp only [chains, leaves_map, List.map_flatMap, List.map_map, Function.comp_def, List.map_cons]

/-- A value that is no map has only the empty chain. -/
theorem chains_of_not_isMap {value : Value} (single : value.isMap = false) :
    value.chains = [[]] := by
  rw [chains, leaves_of_not_isMap single]
  rfl

variable {root value : Value} {names : List String}

/-- Names that lead to a value other than a map are those of a leaf. -/
theorem mem_leaves_of_leads (leads : root.Leads names value) (single : value.isMap = false) :
    (names.map .text, value) ∈ root.leaves := by
  induction leads with
  | here value =>
    rw [leaves_of_not_isMap single]
    exact List.mem_singleton_self _
  | into entry _ ih =>
    rw [leaves_map]
    exact List.mem_flatMap.mpr ⟨_, entry, List.mem_map.mpr ⟨_, ih single, rfl⟩⟩

/-- A leaf of a tree is no map, and its names lead to it. -/
theorem leads_of_mem_leaves (tree : root.IsTree IsPlainKey) {leaf : List Value × Value}
    (member : leaf ∈ root.leaves) :
    root.Leads (leaf.1.map keyText) leaf.2 ∧ leaf.2.isMap = false := by
  induction tree generalizing leaf with
  | @leaf value single =>
    rw [leaves_of_not_isMap single, List.mem_singleton] at member
    rw [member]
    exact ⟨.here value, single⟩
  | map keys distinct branches ih =>
    rw [leaves_map] at member
    obtain ⟨⟨key, child⟩, inside, below⟩ := List.mem_flatMap.mp member
    obtain ⟨inner, listed, rfl⟩ := List.mem_map.mp below
    obtain ⟨name, rfl, -⟩ := keys _ inside
    obtain ⟨behind, single⟩ := ih _ inside listed
    exact ⟨.into inside behind, single⟩

/-- The names that a walk lists are those that lead to a value other than a map. -/
theorem mem_chains_iff (tree : root.IsTree IsPlainKey) :
    names ∈ root.chains ↔ ∃ value, root.Leads names value ∧ value.isMap = false := by
  constructor
  · intro member
    obtain ⟨leaf, inside, rfl⟩ := List.mem_map.mp member
    exact ⟨leaf.2, leads_of_mem_leaves tree inside⟩
  · rintro ⟨value, leads, single⟩
    refine List.mem_map.mpr ⟨_, mem_leaves_of_leads leads single, ?_⟩
    rw [List.map_map]
    exact List.map_id names

/-- Names that lead through a tree are plain. -/
theorem isPlain_of_leads (tree : root.IsTree IsPlainKey) (leads : root.Leads names value) :
    ∀ name ∈ names, IsPlain name := by
  induction leads with
  | here value => exact fun _ => nofun
  | into entry _ ih =>
    cases tree with
    | leaf single => cases single
    | map keys distinct branches =>
      obtain ⟨name, same, plain⟩ := keys _ entry
      cases same
      exact List.forall_mem_cons.mpr ⟨plain, ih (branches _ entry)⟩

/-- Names lead to one value at most. -/
theorem leads_unique (tree : root.IsTree IsPlainKey) {other : Value}
    (leads : root.Leads names value) (also : root.Leads names other) : value = other := by
  induction leads with
  | here value =>
    cases also
    rfl
  | into entry _ ih =>
    cases also with
    | into otherEntry otherBehind =>
      cases tree with
      | leaf single => cases single
      | map keys distinct branches =>
        have found := lookupText_of_mem distinct entry
        rw [lookupText_of_mem distinct otherEntry] at found
        cases found
        exact ih (branches _ entry) otherBehind

/-- No names are listed twice. -/
theorem nodup_chains (tree : root.IsTree IsPlainKey) : root.chains.Nodup := by
  have distinct := nodup_leaves tree
  have images : root.chains = (root.leaves.map (·.1)).map (List.map keyText) := by
    rw [chains, List.map_map]
    rfl
  rw [images]
  refine List.Nodup.map_on (fun first firstIn second secondIn same => ?_) distinct
  obtain ⟨leaf, leafIn, rfl⟩ := List.mem_map.mp firstIn
  obtain ⟨other, otherIn, rfl⟩ := List.mem_map.mp secondIn
  exact map_keyText_injective (plain_of_mem_leaves tree leafIn) (plain_of_mem_leaves tree otherIn)
    same

/-- A walk lists names in its order. -/
theorem pairwise_chains (tree : root.IsTree IsPlainKey) : root.chains.Pairwise root.Precedes := by
  induction tree with
  | leaf single =>
    rw [chains_of_not_isMap single]
    exact List.pairwise_singleton _ _
  | @map entries keys distinct branches ih =>
    rw [chains_map, List.pairwise_flatMap]
    constructor
    · rintro ⟨key, child⟩ inside
      obtain ⟨name, rfl, -⟩ := keys _ inside
      rw [List.pairwise_map]
      exact (ih _ inside).imp fun behind => .within inside behind
    · rw [List.pairwise_iff_forall_sublist]
      rintro first second ahead chain inFirst other inSecond
      obtain ⟨names, -, rfl⟩ := List.mem_map.mp inFirst
      obtain ⟨others, -, rfl⟩ := List.mem_map.mp inSecond
      obtain ⟨name, named, -⟩ := keys first (ahead.subset (by simp))
      obtain ⟨otherName, otherNamed, -⟩ := keys second (ahead.subset (by simp))
      have order := ahead.map Prod.fst
      rw [List.map_cons, List.map_singleton, named, otherNamed] at order
      rw [named, otherNamed]
      exact .apart order

end Value

/-- Plain names are put together with points between them. -/
theorem Path.joined_eq_intercalate {names : List String} (plain : ∀ name ∈ names, IsPlain name) :
    joined names = ".".intercalate names := by
  refine String.toList_inj.mp ?_
  rw [toList_joined fun name member => (isPlain_iff.mp (plain name member)).filled,
    String.toList_intercalate]
  rfl

namespace Context

/-- No layer of a context lists a name twice. -/
structure HasDistinctNames (context : Context) : Prop where
  globals : (Fields.keys context.globals).Nodup
  vars : (Fields.keys context.vars).Nodup
  stepOutputs : (Fields.keys context.stepOutputs).Nodup

/-- All layers of a context laid over each other, the value that a walk through it takes. -/
def root (context : Context) : Value :=
  .ofFields context.merged

/-- What it is to list the leaves of a context, as the names that lead to them. -/
structure ListsLeaves (context : Context) (chains : List (List String)) : Prop where
  /-- Names stand where they appear first, layer by layer. -/
  names : Fields.keys context.merged = (Fields.keys context.globals ++
    (Fields.keys context.vars ++ Fields.keys context.stepOutputs)).eraseDups
  /-- A name has its value in the highest layer that has it. -/
  values : ∀ name, Fields.get? context.merged name =
    (Fields.get? context.stepOutputs name).or
      ((Fields.get? context.vars name).or (Fields.get? context.globals name))
  listed : context.leafPaths = .ok (chains.map (".".intercalate ·))
  distinct : (chains.map (".".intercalate ·)).Nodup
  ordered : chains.Pairwise context.root.Precedes
  mem_iff : ∀ chain, chain ∈ chains ↔
    ∃ value, context.root.Leads chain value ∧ value.isMap = false
  resolved : ∀ chain value, context.root.Leads chain value → value.isMap = false →
    context.resolve (".".intercalate chain) = .ok value
  /-- The path of a map is not listed, be it empty or not. -/
  unlisted : ∀ chain entries, context.root.Leads chain (.map entries) →
    ".".intercalate chain ∉ chains.map (".".intercalate ·)

variable {context : Context}

/-- The layers of a context are laid over each other name by name. -/
theorem merged_eq_overlay (context : Context) :
    context.merged = Fields.overlay context.globals (context.vars ++ context.stepOutputs) :=
  List.foldl_append.symm

/-- **What a context lists.** If all keys of its maps, at any depth, are plain names, a context
lists one path for each chain of names that leads through maps to something else: these names with
points between them, in the order of the walk and none of them twice. Each path leads back to its
value, and the path of a map is not listed. -/
theorem leafPaths_exact (distinct : context.HasDistinctNames)
    (tree : context.root.IsTree Value.IsPlainKey) : ∃ chains, context.ListsLeaves chains := by
  have plain : ∀ chain ∈ context.root.chains, ∀ name ∈ chain, IsPlain name := fun chain member => by
    obtain ⟨value, leads, -⟩ := (Value.mem_chains_iff tree).mp member
    exact Value.isPlain_of_leads tree leads
  have paths : context.root.chains.map joined = context.root.chains.map (".".intercalate ·) :=
    List.map_congr_left fun chain member => joined_eq_intercalate (plain chain member)
  refine ⟨context.root.chains, ?_, fun name => ?_, ?_, ?_, Value.pairwise_chains tree,
    fun chain => Value.mem_chains_iff tree, fun chain value leads single => ?_,
    fun chain entries leads member => ?_⟩
  · rw [merged_eq_overlay, Fields.keys_overlay distinct.globals, Fields.keys_append]
  · rw [merged, Fields.get?_overlay_of_nodup distinct.stepOutputs,
      Fields.get?_overlay_of_nodup distinct.vars]
  · have listed := Value.leafPaths_eq tree []
    rw [← paths, Value.chains, List.map_map]
    exact listed
  · rw [← paths]
    exact List.Nodup.map_on (fun first firstIn second secondIn same =>
      joined_injective (plain first firstIn) (plain second secondIn) same) (Value.nodup_chains tree)
  · have leaf := Value.mem_leaves_of_leads leads single
    have found := resolve_joined tree leaf
    rw [List.map_map] at found
    rw [← joined_eq_intercalate (Value.isPlain_of_leads tree leads), ← List.map_id chain]
    exact found
  · obtain ⟨other, listed, same⟩ := List.mem_map.mp member
    have plainHere := Value.isPlain_of_leads tree leads
    rw [← joined_eq_intercalate plainHere, ← joined_eq_intercalate (plain other listed)] at same
    rw [joined_injective (plain other listed) plainHere same] at listed
    obtain ⟨value, also, single⟩ := (Value.mem_chains_iff tree).mp listed
    rw [Value.leads_unique tree also leads] at single
    cases single

/-- A name of the lowest layer that the highest one takes for a map, and an empty map. -/
theorem leafPaths_exact_hidden :
    let context : Context := ⟨[("a", .map [(.text "b", .int 1), (.text "c", .map [])]),
      ("d", .int 2)], [("e", .list [.null])], [("d", .map [(.text "f", .null)])]⟩
    context.HasDistinctNames ∧ context.root.IsTree Value.IsPlainKey ∧
      (∃ chains, context.ListsLeaves chains) ∧ context.leafPaths = .ok ["a.b", "d.f", "e"] := by
  intro context
  have plain {name : String} (same : parse name = .ok [⟨name, []⟩]) :
      (Value.text name).IsPlainKey := ⟨name, rfl, same⟩
  have distinct : context.HasDistinctNames := ⟨by decide, by decide, by decide⟩
  have first : (Value.map [(.text "b", .int 1), (.text "c", .map [])]).IsTree Value.IsPlainKey := by
    refine .map ?_ (List.pairwise_pair.mpr rfl) ?_
    · exact List.forall_mem_cons.mpr ⟨plain rfl, List.forall_mem_singleton.mpr (plain rfl)⟩
    · exact List.forall_mem_cons.mpr ⟨.leaf rfl,
        List.forall_mem_singleton.mpr (.map (fun _ => nofun) .nil (fun _ => nofun))⟩
  have second : (Value.map [(.text "f", .null)]).IsTree Value.IsPlainKey :=
    Value.isTree_singleton (plain rfl) (.leaf rfl)
  have tree : context.root.IsTree Value.IsPlainKey := by
    refine .map ?_ ?_ ?_
    · exact List.forall_mem_cons.mpr ⟨plain rfl, List.forall_mem_cons.mpr
        ⟨plain rfl, List.forall_mem_singleton.mpr (plain rfl)⟩⟩
    · exact List.pairwise_cons.mpr ⟨List.forall_mem_cons.mpr ⟨rfl,
        List.forall_mem_singleton.mpr rfl⟩, List.pairwise_pair.mpr rfl⟩
    · exact List.forall_mem_cons.mpr ⟨first, List.forall_mem_cons.mpr
        ⟨second, List.forall_mem_singleton.mpr (.leaf rfl)⟩⟩
  exact ⟨distinct, tree, leafPaths_exact distinct tree, rfl⟩

end Context
end Stencil
