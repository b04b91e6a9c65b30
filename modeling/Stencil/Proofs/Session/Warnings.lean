import Stencil.Proofs.Template.Build
import Stencil.Proofs.Template.Keys
import Stencil.Session

/-!
# Warnings of unknown paths

A session compares paths as they are written: one leads into another if it goes on behind all of its
pieces between the points (`Session.leadsInto_iff`). A catalog knows a path if the path goes on
behind all keys of one of its definitions (`Catalog.Knows`). The main statement is
`Session.warnsExactly_iff`: a path that the catalog does not know is always warned of, and the
warnings are exact, whatever the catalog, for the templates without indexes and for no others.
-/

namespace Stencil

/-- A catalog knows a path that goes on behind the keys of one of its definitions. -/
def Catalog.Knows (catalog : Catalog) (path : Path) : Prop :=
  ∃ definition ∈ catalog.all, ∃ known, Path.parse definition.path = .ok known ∧
    known.keys <+: path.keys

/-- The paths of all definitions are valid and have no blanks around them. -/
def Catalog.HasValidPaths (catalog : Catalog) : Prop :=
  ∀ definition ∈ catalog.all, Text.trim definition.path.toList = definition.path.toList ∧
    Path.isValid definition.path = true

/-- The catalog with one variable, which has a path and nothing else to tell it by. -/
def Catalog.ofPath (path : String) : Catalog :=
  ⟨[("variable", ⟨"variable", "variable", path, .any, .workflow, none, none, none, none, .null⟩)],
    .empty⟩

namespace Session

/-- The warning that a path is not in the catalog. -/
def warningOf (path : String) : String :=
  s!"Variable '{path}' is not in the catalog"

/-- The problems and warnings that a session answers with when it checks a template. -/
def Finds (session : Session) (template : String) (problems : List Diagnostic)
    (warnings : List String) : Prop :=
  session.validateTemplate template .data = .ok (.ofFields [("valid", .bool problems.isEmpty),
    ("errors", diagnosticsValue problems), ("warnings", .ofTexts warnings)])

/-- A session warns of the references whose paths its catalog does not know, and of nothing else. -/
def WarnsExactly (session : Session) (template : String) (found : List Reference) : Prop :=
  ∃ problems warnings, session.Finds template problems warnings ∧ ∀ text, text ∈ warnings ↔
    ∃ reference ∈ found, text = warningOf reference.path ∧
      ¬ session.catalog.Knows reference.segments

/-- Different paths have different warnings. -/
theorem warningOf_injective : Function.Injective warningOf := by
  intro path other same
  have chars := congrArg String.toList same
  simp only [warningOf, toString, String.toList_append, List.append_cancel_right_eq,
    List.append_cancel_left_eq] at chars
  exact String.toList_injective chars

/-- One path leads into another if it goes on behind all of its pieces. -/
theorem leadsInto_iff {path known : String} : leadsInto path known = true ↔
    known.toList.splitOn '.' <+: path.toList.splitOn '.' := by
  rw [leadsInto, Bool.or_eq_true, beq_iff_eq, List.isPrefixOf_iff_prefix, String.toList_append,
    Text.splitOn_isPrefix_iff, String.toList_inj]
  rfl

/-- An answer tells its warnings. -/
theorem Finds.warnings_eq {session : Session} {template : String}
    {problems others : List Diagnostic} {listed warnings : List String}
    (one : session.Finds template problems listed)
    (other : session.Finds template others warnings) : listed = warnings := by
  have same := Except.ok.inj (one.symm.trans other)
  simp only [Value.ofFields, Value.fieldEntries, Value.ofTexts, List.map_cons, Value.map.injEq,
    List.cons.injEq, Prod.mk.injEq, Value.list.injEq] at same
  exact List.map_injective_iff.mpr (fun _ _ texts => Value.text.inj texts) same.2.2.1.2

section Template

variable {template : String} {found : List Reference}

/-- A session warns of the paths that lead into no definition of its catalog. -/
theorem exists_warnings (session : Session) (read : references template = .ok found)
    (valid : ∀ reference ∈ found, Path.isValid reference.path = true)
    (some : session.catalog.all ≠ []) :
    ∃ listed, session.warnings template = .ok listed ∧ ∀ text, text ∈ listed ↔
      ∃ reference ∈ found, text = warningOf reference.path ∧
        ∀ definition ∈ session.catalog.all, leadsInto reference.path definition.path = false := by
  have known : (session.catalog.all.map (·.path)).isEmpty = false := by simpa using some
  have paths : referencedPaths template = .ok (found.map (·.path)).eraseDups := by
    rw [referencedPaths, read]
    rfl
  rw [warnings, known, paths]
  refine ⟨_, rfl, fun text => ?_⟩
  rw [List.mem_mergeSort]
  simp only [List.mem_map, List.mem_filter, List.mem_eraseDups, Bool.not_eq_true',
    List.any_eq_false, List.any_map]
  constructor
  · rintro ⟨path, ⟨⟨⟨reference, member, rfl⟩, -⟩, apart⟩, rfl⟩
    exact ⟨reference, member, rfl, fun definition among => by simpa using apart definition among⟩
  · rintro ⟨reference, member, rfl, apart⟩
    refine ⟨reference.path, ⟨⟨⟨reference, member, rfl⟩, ?_⟩, fun definition among => ?_⟩, rfl⟩
    · rw [Bool.eq_false_iff, ne_eq, String.isEmpty_iff]
      intro empty
      have path := valid reference member
      rw [empty] at path
      cases path
    · simpa using apart definition among

/-- The answer to a request to check a template whose references are read. -/
theorem finds (session : Session) (read : references template = .ok found) {listed : List String}
    (lists : session.warnings template = .ok listed) :
    session.Finds template ((distinctReferences found).flatMap session.resolver.referenceProblems)
      listed := by
  rw [Finds, validateTemplate, Resolver.problems, read, lists]
  rfl

variable (session : Session) {reference : Reference}

/-- What leads into a definition is known. -/
theorem knows_of_leadsInto (read : references template = .ok found) (member : reference ∈ found)
    (valid : Path.isValid reference.path = true) {definition : Definition}
    (among : definition ∈ session.catalog.all)
    (leads : leadsInto reference.path definition.path = true) :
    session.catalog.Knows reference.segments := by
  obtain ⟨trimmed, parsed⟩ := Reference.path_of_mem read member
  obtain ⟨known, parsedKnown, goesOn⟩ :=
    Path.keys_isPrefix_of_pieces trimmed valid parsed (leadsInto_iff.mp leads)
  exact ⟨definition, among, known, parsedKnown, goesOn⟩

/-- A path without indexes is known only if it leads into a definition. -/
theorem leadsInto_of_knows (read : references template = .ok found) (member : reference ∈ found)
    (valid : Path.isValid reference.path = true) (noIndex : '[' ∉ reference.path.toList)
    (validPaths : session.catalog.HasValidPaths)
    (knows : session.catalog.Knows reference.segments) :
    ∃ definition ∈ session.catalog.all, leadsInto reference.path definition.path = true := by
  obtain ⟨trimmed, parsed⟩ := Reference.path_of_mem read member
  obtain ⟨definition, among, known, parsedKnown, goesOn⟩ := knows
  obtain ⟨trimmedKnown, validKnown⟩ := validPaths definition among
  exact ⟨definition, among, leadsInto_iff.mpr (Path.pieces_isPrefix_of_keys trimmed valid noIndex
    trimmedKnown validKnown parsed parsedKnown goesOn)⟩

/-- The warnings are not exact if a path with an index goes on behind the name in front of it. -/
theorem exists_not_warnsExactly (read : references template = .ok found)
    (valid : ∀ reference ∈ found, Path.isValid reference.path = true)
    (member : reference ∈ found) (index : '[' ∈ reference.path.toList) (resolver : Resolver) :
    ∃ catalog : Catalog, catalog.all ≠ [] ∧ catalog.HasValidPaths ∧
      ¬ WarnsExactly ⟨resolver, catalog⟩ template found := by
  obtain ⟨trimmed, parsed⟩ := Reference.path_of_mem read member
  obtain ⟨known, front, trimmedKnown, validKnown, parsedKnown, goesOn, apart⟩ :=
    Path.exists_keys_isPrefix trimmed (valid reference member) index parsed
  have only : (Catalog.ofPath known).all = [_] := rfl
  refine ⟨Catalog.ofPath known, by simp [only], ?_, ?_⟩
  · rw [Catalog.HasValidPaths, only, List.forall_mem_singleton]
    exact ⟨trimmedKnown, validKnown⟩
  · rintro ⟨problems, warnings, answers, listedIff⟩
    obtain ⟨listed, lists, warned⟩ :=
      exists_warnings ⟨resolver, Catalog.ofPath known⟩ read valid (by simp [only])
    obtain rfl := answers.warnings_eq (finds _ read lists)
    have told : warningOf reference.path ∈ warnings := by
      refine (warned _).mpr ⟨reference, member, rfl, ?_⟩
      rw [only, List.forall_mem_singleton, Bool.eq_false_iff, ne_eq, leadsInto_iff]
      exact apart
    obtain ⟨other, among, same, unknown⟩ := (listedIff _).mp told
    have parsedOther := (Reference.path_of_mem read among).2
    rw [← warningOf_injective same, parsed] at parsedOther
    refine unknown ⟨_, only ▸ List.mem_singleton_self _, front, parsedKnown, ?_⟩
    rwa [← Except.ok.inj parsedOther]

/-- **When the warnings are exact.** A session with a catalog answers a request to check a template
with valid paths. It warns of every path that the catalog does not know. Whatever the catalog, it
warns of no other path exactly if no path of the template has an index. -/
theorem warnsExactly_iff (read : references template = .ok found)
    (valid : ∀ reference ∈ found, Path.isValid reference.path = true) :
    (∀ session : Session, session.catalog.all ≠ [] → ∃ problems listed,
      session.Finds template problems listed ∧ ∀ reference ∈ found,
        ¬ session.catalog.Knows reference.segments → warningOf reference.path ∈ listed) ∧
    ∀ resolver, (∀ catalog : Catalog, catalog.all ≠ [] → catalog.HasValidPaths →
      WarnsExactly ⟨resolver, catalog⟩ template found) ↔
        ∀ reference ∈ found, '[' ∉ reference.path.toList := by
  refine ⟨fun session some => ?_, fun resolver => ⟨fun always => ?_, fun noIndex => ?_⟩⟩
  · obtain ⟨listed, lists, warned⟩ := exists_warnings session read valid some
    refine ⟨_, listed, finds session read lists, fun reference member unknown => ?_⟩
    refine (warned _).mpr ⟨reference, member, rfl, fun definition among => ?_⟩
    rw [Bool.eq_false_iff]
    exact fun leads =>
      unknown (knows_of_leadsInto _ read member (valid reference member) among leads)
  · intro reference member index
    obtain ⟨catalog, some, validPaths, inexact⟩ :=
      exists_not_warnsExactly read valid member index resolver
    exact inexact (always catalog some validPaths)
  · intro catalog some validPaths
    obtain ⟨listed, lists, warned⟩ := exists_warnings ⟨resolver, catalog⟩ read valid some
    refine ⟨_, listed, finds _ read lists, fun text => (warned text).trans ?_⟩
    refine exists_congr fun reference => and_congr_right fun member => and_congr_right fun _ => ?_
    constructor
    · intro apart knows
      obtain ⟨definition, among, leads⟩ := leadsInto_of_knows ⟨resolver, catalog⟩
        read member (valid reference member) (noIndex reference member) validPaths knows
      rw [apart definition among] at leads
      cases leads
    · intro unknown definition among
      rw [Bool.eq_false_iff]
      exact fun leads =>
        unknown (knows_of_leadsInto _ read member (valid reference member) among leads)

end Template

/-- A path beside a known one. -/
theorem warnsExactly_beside :
    WarnsExactly ⟨Resolver.default, Catalog.ofPath "form.email"⟩ "{{ form.phone }}"
      [⟨"{{ form.phone }}", "form.phone", ["form", "phone"], [⟨"form", []⟩, ⟨"phone", []⟩], [],
        0, 16⟩] := by
  have read : references "{{ form.phone }}" = .ok [⟨"{{ form.phone }}", "form.phone",
      ["form", "phone"], [⟨"form", []⟩, ⟨"phone", []⟩], [], 0, 16⟩] := rfl
  have whole :=
    (warnsExactly_iff read (List.forall_mem_singleton.mpr (by decide))).2 Resolver.default
  exact whole.mpr (List.forall_mem_singleton.mpr (by decide)) (Catalog.ofPath "form.email")
    (List.cons_ne_nil _ _) (List.forall_mem_singleton.mpr ⟨by decide, by decide⟩)

/-- An item of a known list. -/
theorem warns_of_known_index :
    ∃ reference, references "{{items[0].name}}" = .ok [reference] ∧
      Path.isValid reference.path = true ∧ (Catalog.ofPath "items").HasValidPaths ∧
      (Catalog.ofPath "items").Knows reference.segments ∧
      ∃ problems, Finds ⟨Resolver.default, Catalog.ofPath "items"⟩ "{{items[0].name}}" problems
        ["Variable 'items[0].name' is not in the catalog"] := by
  have read : references "{{items[0].name}}" = .ok [⟨"{{items[0].name}}", "items[0].name",
      ["items[0]", "name"], [⟨"items", [0]⟩, ⟨"name", []⟩], [], 0, 17⟩] := rfl
  have paths : referencedPaths "{{items[0].name}}" = .ok ["items[0].name"] := by
    rw [referencedPaths, read]
    rfl
  have lists : warnings ⟨Resolver.default, Catalog.ofPath "items"⟩ "{{items[0].name}}" =
      .ok ["Variable 'items[0].name' is not in the catalog"] := by
    rw [warnings, paths]
    exact congrArg Except.ok (List.mergeSort_singleton (warningOf "items[0].name"))
  have valid : (Catalog.ofPath "items").HasValidPaths :=
    List.forall_mem_singleton.mpr ⟨by decide, by decide⟩
  refine ⟨_, read, by decide, valid, ?_, _, finds _ read lists⟩
  exact ⟨_, List.mem_singleton_self _, [⟨"items", []⟩], rfl, [.index 0, .name "name"], rfl⟩

end Session
end Stencil
