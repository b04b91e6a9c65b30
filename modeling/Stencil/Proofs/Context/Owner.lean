import Stencil.Proofs.Catalog.Layers
import Stencil.Resolve.Resolver

/-!
# The owner of a name

The layers of a context lie over each other, and the highest layer that has a name owns it
(`Context.owner?`). The main statement is `Context.owner_decides`: a path is looked up in the layer
that owns its first name and in no other, whatever that layer holds there, and contexts that differ
only in entries that a higher layer hides give the same results.
-/

namespace Stencil

open Outcome

namespace Context

/-- The layers from the highest to the lowest. -/
def Layer.downward : List Layer :=
  [.stepOutputs, .vars, .globals]

/-- The layers that lie over a layer. -/
def Layer.above : Layer → List Layer
  | .stepOutputs => []
  | .vars => [.stepOutputs]
  | .globals => [.vars, .stepOutputs]

/-- The highest layer that has a name. -/
def owner? (context : Context) (name : String) : Option Layer :=
  Layer.downward.find? fun layer => (context.layer layer).has name

/-- Whether a higher layer hides the entry of a name in a layer. -/
def Hides (context : Context) (layer : Layer) (name : String) : Prop :=
  ∃ upper ∈ layer.above, (context.layer upper).has name = true

/-- The context with the value of a name set in a layer. -/
def setIn (context : Context) (layer : Layer) (name : String) (value : Value) : Context :=
  match layer with
  | .globals => { context with globals := Fields.set name value context.globals }
  | .vars => { context with vars := Fields.set name value context.vars }
  | .stepOutputs => { context with stepOutputs := Fields.set name value context.stepOutputs }

/-- Whether two contexts list the same names in their layers and differ at most in the values of
entries that a higher layer hides. -/
structure AgreesVisibly (context other : Context) : Prop where
  names : ∀ layer, Fields.keys (context.layer layer) = Fields.keys (other.layer layer)
  values : ∀ layer name, ¬ context.Hides layer name →
    Fields.get? (context.layer layer) name = Fields.get? (other.layer layer) name

/-- Whether two contexts cannot be told apart by what is looked up in them, listed of them, and
resolved or previewed against them, wherever they are loaded from. -/
structure AnswersAlike (context other : Context) : Prop where
  resolve : ∀ path, context.resolve path = other.resolve path
  leafPaths : context.leafPaths = other.leafPaths
  preview : ∀ (resolver : Resolver) (text : String) (source otherSource : Source),
    source.load = .ok context → otherSource.load = .ok other →
      resolver.preview text source = resolver.preview text otherSource
  resolveTemplate : ∀ (resolver : Resolver) (template : Value) (source otherSource : Source)
    (policy : Option String), source.load = .ok context → otherSource.load = .ok other →
      resolver.resolve template source policy = resolver.resolve template otherSource policy

variable {context other : Context} {layer owner : Layer} {name : String}

/-- Setting a name changes one layer only. -/
theorem layer_setIn (context : Context) (layer other : Layer) (name : String) (value : Value) :
    (context.setIn layer name value).layer other =
      if other = layer then Fields.set name value (context.layer layer)
      else context.layer other := by
  cases layer <;> cases other <;> rfl

/-- Setting an entry that a higher layer hides changes nothing that is visible. -/
theorem agreesVisibly_setIn (has : (context.layer layer).has name = true)
    (hidden : context.Hides layer name) (value : Value) :
    context.AgreesVisibly (context.setIn layer name value) where
  names other := by
    rw [layer_setIn]
    split_ifs with same
    · rw [same, Fields.keys_set_of_mem value ((Fields.has_iff_mem_keys _ _).mp has)]
    · rfl
  values other visible seen := by
    rw [layer_setIn]
    split_ifs with same
    · have differ : visible ≠ name := by
        intro equal
        rw [same, equal] at seen
        exact seen hidden
      rw [same, Fields.get?_set_of_ne _ _ differ]
    · rfl

/-- A context that is read from a value lists no name twice, under either spelling of its
layers. -/
theorem hasDistinctNames_of_ofValue {value : Value} (loads : ofValue value = .ok context) :
    context.HasDistinctNames := by
  have part {names : List String} {entries : List (Value × Value)} {data : Fields Value}
      (accepted : Schema.optional names [] (Schema.fields Schema.any) entries = .ok data) :
      (Fields.keys data).Nodup := by
    obtain rfl | ⟨entry, -, taken⟩ := Schema.exists_of_optional accepted
    · exact .nil
    · exact Schema.nodup_keys_of_fields taken
  have checked {entries : List (Value × Value)} (accepted : (check entries).outcome = .ok context) :
      context.HasDistinctNames := by
    simp only [Checked.outcome_eq_ok, check, Checked.and_eq_ok] at accepted
    obtain ⟨_, _, ⟨_, _, ⟨_, _, built, low, rfl⟩, middle, rfl⟩, high, rfl⟩ := accepted
    cases built
    exact ⟨part low, part middle, part high⟩
  cases value with
  | null =>
    cases loads
    exact ⟨.nil, .nil, .nil⟩
  | _ =>
    obtain ⟨entries, -, accepted⟩ := bind_eq_ok.mp loads
    exact checked accepted

/-- The names of the merged layers are those of the layers in turn, each once. -/
theorem keys_merged (distinct : context.HasDistinctNames) :
    Fields.keys context.merged = (Fields.keys context.globals ++
      (Fields.keys context.vars ++ Fields.keys context.stepOutputs)).eraseDups := by
  rw [merged_eq_overlay, Fields.keys_overlay distinct.globals, Fields.keys_append]

/-- A name belongs to the innermost layer that has it. -/
theorem owner?_eq (context : Context) (name : String) :
    context.owner? name =
      if context.stepOutputs.has name then some .stepOutputs
      else if context.vars.has name then some .vars
      else if context.globals.has name then some .globals
      else none := by
  simp only [owner?, Layer.downward, List.find?_cons, List.find?_nil, layer]
  split_ifs with high middle low <;> simp only [*]

/-- Laid over each other, the layers have under a name what the owner of the name has. -/
theorem get?_merged_eq_owner (distinct : context.HasDistinctNames) (name : String) :
    Fields.get? context.merged name =
      (context.owner? name).bind fun owner => Fields.get? (context.layer owner) name := by
  rw [merged, Fields.get?_overlay_of_nodup distinct.stepOutputs,
    Fields.get?_overlay_of_nodup distinct.vars, owner?_eq]
  simp only [Fields.has_eq_isSome_get?]
  cases high : Fields.get? context.stepOutputs name with
  | some value => exact high.symm
  | none =>
    cases middle : Fields.get? context.vars name with
    | some value => exact middle.symm
    | none =>
      cases low : Fields.get? context.globals name with
      | some value => exact low.symm
      | none => rfl

/-- No layer hides the entry of a name in the layer that owns it. -/
theorem not_hides_of_owner? (owns : context.owner? name = some owner) :
    ¬ context.Hides owner name := by
  intro ⟨upper, above, has⟩
  rw [owner?_eq] at owns
  split_ifs at owns with high middle low
  · cases owns
    cases above
  · cases owns
    rw [List.mem_singleton.mp above] at has
    exact high has
  · cases owns
    obtain rfl | rfl : upper = .vars ∨ upper = .stepOutputs := by simpa [Layer.above] using above
    · exact middle has
    · exact high has

/-- Contexts with the same names in each layer have the same owners. -/
theorem owner?_congr (names : ∀ layer, Fields.keys (context.layer layer) =
    Fields.keys (other.layer layer)) (name : String) : context.owner? name = other.owner? name := by
  have same (layer : Layer) : (context.layer layer).has name = (other.layer layer).has name := by
    rw [Bool.eq_iff_iff, Fields.has_iff_mem_keys, Fields.has_iff_mem_keys, names layer]
  simp only [owner?, same]

/-- Contexts that differ only in hidden values are the same once their layers are laid over each
other. -/
theorem merged_eq_of_agreesVisibly (distinct : context.HasDistinctNames)
    (agree : context.AgreesVisibly other) : context.merged = other.merged := by
  have globals : Fields.keys context.globals = Fields.keys other.globals := agree.names .globals
  have vars : Fields.keys context.vars = Fields.keys other.vars := agree.names .vars
  have outputs : Fields.keys context.stepOutputs = Fields.keys other.stepOutputs :=
    agree.names .stepOutputs
  have otherDistinct : other.HasDistinctNames :=
    ⟨globals ▸ distinct.globals, vars ▸ distinct.vars, outputs ▸ distinct.stepOutputs⟩
  apply Fields.eq_of_keys_eq
  · exact Fields.nodup_keys_overlay _ _ (Fields.nodup_keys_overlay _ _ distinct.globals)
  · rw [keys_merged distinct, keys_merged otherDistinct, globals, vars, outputs]
  · intro name
    rw [get?_merged_eq_owner distinct, get?_merged_eq_owner otherDistinct,
      ← owner?_congr agree.names name]
    cases owns : context.owner? name with
    | none => rfl
    | some owner => exact agree.values owner name (not_hides_of_owner? owns)

/-- Contexts whose layers make up the same dictionary give the same results. -/
theorem answersAlike_of_merged_eq (same : context.merged = other.merged) :
    context.AnswersAlike other where
  resolve path := by rw [Context.resolve, Context.resolve, same]
  leafPaths := by rw [Context.leafPaths, Context.leafPaths, same]
  preview resolver text source otherSource loads otherLoads := by
    simp only [Resolver.preview, loads, otherLoads, ok_bind, same]
  resolveTemplate resolver template source otherSource policy loads otherLoads := by
    cases template with
    | text s => simp only [Resolver.resolve, loads, otherLoads, ok_bind, same]
    | _ => rfl

/-- **The highest layer that has the first name decides.** A path is looked up in the layer that
owns its first name alone, whether or not it leads anywhere there, and it leads nowhere if no layer
has the name. So values that a higher layer hides do not count for anything. -/
theorem owner_decides (distinct : context.HasDistinctNames) :
    (∀ path segment rest, Path.parse path = .ok (segment :: rest) →
      context.resolve path =
        match context.owner? segment.name with
        | some owner => lookup (segment :: rest) (context.layer owner)
        | none => .ok .undefined) ∧
      ∀ other, context.AgreesVisibly other → context.AnswersAlike other := by
  refine ⟨fun path segment rest read => ?_, fun other agree =>
    answersAlike_of_merged_eq (merged_eq_of_agreesVisibly distinct agree)⟩
  rw [Context.resolve, read, ok_bind, lookup_cons, get?_merged_eq_owner distinct]
  cases owns : context.owner? segment.name with
  | some owner =>
    rw [Option.bind_some]
    exact (lookup_cons segment rest _).symm
  | none =>
    change (segment.indices.foldl Value.item .undefined).follow rest = _
    rw [Value.foldl_item_undefined, Value.follow_undefined]

/-- A null output hides a variable with something below it, and a shorter list of variables a longer
one of globals. -/
theorem owner_decides_null :
    let context : Context := ⟨[("items", .list [.int 5, .int 6])],
      [("a", .map [(.text "b", .int 1)]), ("items", .list [.int 7])], [("a", .null)]⟩
    ofValue (.map [(.text "stepOutputs", .ofFields context.stepOutputs),
        (.text "variables", .ofFields context.vars),
        (.text "globalVariables", .ofFields context.globals)]) = .ok context ∧
      context.resolve "a.b" = .ok .undefined ∧ context.resolve "items[1]" = .ok .undefined ∧
      context.AnswersAlike (context.setIn .vars "a" (.text "x")) := by
  intro context
  have loads : ofValue (.map [(.text "stepOutputs", .ofFields context.stepOutputs),
      (.text "variables", .ofFields context.vars),
      (.text "globalVariables", .ofFields context.globals)]) = .ok context := rfl
  obtain ⟨looked, alike⟩ := owner_decides (hasDistinctNames_of_ofValue loads)
  refine ⟨loads, looked "a.b" ⟨"a", []⟩ [⟨"b", []⟩] rfl,
    looked "items[1]" ⟨"items", [1]⟩ [] rfl, ?_⟩
  exact alike _ (agreesVisibly_setIn rfl ⟨.stepOutputs, List.mem_singleton_self _, rfl⟩ _)

end Context
end Stencil
