import Stencil.Proofs.Resolve.Policy
import Stencil.Proofs.Resolve.Preview
import Stencil.Proofs.Template.Append

/-!
# Resolving texts put together

A pass over a text keeps a memory, and yet what it makes of a reference does not depend on what
stands around it. The main statement is `Resolver.resolve_append`: where two texts meet and no hole
lies on both sides, the references are those of the one and of the other, what the two texts are
resolved to stands one behind the other, and so do the paths that lead nowhere, without repeats.
-/

namespace Stencil

open Outcome

section Splice

variable {front back : List Char} {pairs others : List (Reference × String)}

/-- References with their texts, moved to the right. -/
def movedPairs (distance : Nat) (pairs : List (Reference × String)) : List (Reference × String) :=
  pairs.map fun pair => (pair.1.moved distance, pair.2)

/-- Filling a text behind another one is filling it at its own positions. -/
theorem splice_moved (front back : List Char) (position : Nat) (pairs : List (Reference × String)) :
    splice (front ++ back) (position + front.length) (movedPairs front.length pairs) =
      splice back position pairs := by
  have behind (place : Nat) : (front ++ back).drop (place + front.length) = back.drop place := by
    rw [Nat.add_comm, ← List.drop_drop, List.drop_left]
  induction pairs generalizing position with
  | nil => exact behind position
  | cons pair rest ih =>
    obtain ⟨reference, replacement⟩ := pair
    have width : reference.start + front.length - (position + front.length) =
        reference.start - position := Nat.add_sub_add_right _ _ _
    have later := ih reference.stop
    rw [movedPairs] at later
    rw [movedPairs, List.map_cons, splice, splice, List.extract_eq_take_drop,
      List.extract_eq_take_drop, behind, Reference.moved, width, later]

/-- What stands behind the last reference of a text goes on with the text that follows. -/
theorem splice_movedPairs {position : Nat} (within : position ≤ front.length) :
    splice (front ++ back) position (movedPairs front.length others) =
      front.drop position ++ splice back 0 others := by
  cases others with
  | nil => exact List.drop_append_of_le_length within
  | cons pair rest =>
    obtain ⟨reference, replacement⟩ := pair
    have reach : reference.start + front.length - position =
        (front.drop position).length + reference.start := by
      rw [List.length_drop]
      omega
    have later := splice_moved front back reference.stop rest
    rw [movedPairs] at later
    rw [movedPairs, List.map_cons, splice, splice, List.extract_eq_take_drop,
      List.extract_eq_take_drop, List.drop_append_of_le_length within, Reference.moved, reach,
      List.take_length_add_append, later, List.drop_zero, Nat.sub_zero]
    simp only [List.append_assoc]

/-- Texts put together are spliced one by one, if the references of the first lie within it. -/
theorem splice_append {position : Nat} (within : position ≤ front.length)
    (inside : ∀ pair ∈ pairs, pair.1.start ≤ front.length ∧ pair.1.stop ≤ front.length) :
    splice (front ++ back) position (pairs ++ movedPairs front.length others) =
      splice front position pairs ++ splice back 0 others := by
  induction pairs generalizing position with
  | nil => exact splice_movedPairs within
  | cons pair rest ih =>
    obtain ⟨reference, replacement⟩ := pair
    rw [List.forall_mem_cons] at inside
    have short : reference.start - position ≤ (front.drop position).length := by
      rw [List.length_drop]
      exact Nat.sub_le_sub_right inside.1.1 position
    rw [List.cons_append, splice, splice, List.extract_eq_take_drop, List.extract_eq_take_drop,
      List.drop_append_of_le_length within, List.take_append_of_le_length short,
      ih inside.1.2 inside.2]
    simp only [List.append_assoc]

end Splice

namespace Filling

variable {registry : Registry} {values : Fields Value} {front back : String}
  {first second : List Filling}

/-- The filling of the same reference farther to the right. -/
def moved (distance : Nat) (filling : Filling) : Filling :=
  { filling with reference := filling.reference.moved distance }

/-- The replacements of two texts in a row are those of the first and those of the second, moved. -/
theorem replacements_append_moved (policy : Policy) (distance : Nat) :
    replacements policy (first ++ second.map (moved distance)) =
      replacements policy first ++ movedPairs distance (replacements policy second) := by
  simp only [replacements, movedPairs, List.map_append, List.map_map]
  rfl

/-- The unresolved paths of two texts in a row are those of both, each once. -/
theorem unresolvedPaths_append_moved (distance : Nat) :
    unresolvedPaths (first ++ second.map (moved distance)) =
      (unresolvedPaths first ++ unresolvedPaths second).eraseDups := by
  have same : ((second.map (moved distance)).filter (!·.resolution.resolved)).map
      (·.reference.path) = (second.filter (!·.resolution.resolved)).map (·.reference.path) := by
    rw [List.filter_map, List.map_map]
    rfl
  simp only [unresolvedPaths, pathsWhere]
  rw [eraseDups_append_eraseDups, List.filter_append, List.map_append, same]

/-- The fillings of two texts put together. -/
theorem ofText_append (clear : Token.IsClear (front ++ back).toList front.length)
    (readFront : ofText registry values front = .ok first)
    (readBack : ofText registry values back = .ok second) :
    ofText registry values (front ++ back) = .ok (first ++ second.map (moved front.length)) := by
  obtain ⟨referencesFront, filledFront⟩ := ofText_eq_ok_iff.mp readFront
  obtain ⟨referencesBack, filledBack⟩ := ofText_eq_ok_iff.mp readBack
  refine ofText_eq_ok_iff.mpr ⟨?_, List.forall_mem_append.mpr ⟨filledFront, ?_⟩⟩
  · rw [references_append clear, referencesFront, referencesBack, List.map_append, List.map_map]
    exact congrArg (fun later => Except.ok (first.map (·.reference) ++ later)) List.map_map
  · refine List.forall_mem_map.mpr fun filling member => ?_
    obtain ⟨-, resolves, shows⟩ := ofReference_eq_ok_iff.mp (filledBack filling member)
    exact ofReference_eq_ok_iff.mpr ⟨rfl, resolves, shows⟩

/-- The references of a text lie within it. -/
theorem inside_of_ofText {text : String} {fillings : List Filling} {policy : Policy}
    (read : ofText registry values text = .ok fillings) :
    ∀ pair ∈ replacements policy fillings,
      pair.1.start ≤ text.length ∧ pair.1.stop ≤ text.length := by
  refine List.forall_mem_map.mpr fun filling member => ?_
  have spanned := Reference.spans_of_ofTokens (ofText_eq_ok_iff.mp read).1
  have taken : (filling.reference.start, filling.reference.stop) ∈
      Token.spans 0 (Token.tokens text.toList) := by
    rw [← spanned, List.map_map]
    exact List.mem_map.mpr ⟨filling, member, rfl⟩
  have ends := Token.le_of_mem_spans_source taken
  have room := (Token.le_of_mem_spans taken).2
  rw [Token.source_tokens, String.length_toList] at ends
  dsimp only at ends room ⊢
  omega

/-- What two texts put together are resolved to. -/
theorem value_resolutionOf_append (policy : Policy)
    (readFront : ofText registry values front = .ok first) :
    (resolutionOf policy (front ++ back) (first ++ second.map (moved front.length))).value =
      .text (String.ofList (splice front.toList 0 (replacements policy first)) ++
        String.ofList (splice back.toList 0 (replacements policy second))) := by
  have inside := @inside_of_ofText _ _ _ _ policy readFront
  rw [← String.length_toList] at inside ⊢
  rw [resolutionOf, replacements_append_moved, String.toList_append,
    splice_append (Nat.zero_le _) inside, String.ofList_append]

end Filling

namespace Resolver

variable {resolver : Resolver} {front back : String} {source : Context.Source} {context : Context}

/-- If the references of two texts put together settle, so do those of each of them. -/
theorem Settles.of_append (clear : Token.IsClear (front ++ back).toList front.length)
    {found : List Reference} {resolutions : List Resolution}
    (settles : resolver.Settles (front ++ back) source found resolutions) :
    (∃ first resolved, resolver.Settles front source first resolved) ∧
      ∃ second resolved, resolver.Settles back source second resolved := by
  have reads := settles.reads
  rw [references_append clear] at reads
  obtain ⟨first, second, readsFront, readsBack, rfl⟩ := both_eq_ok_iff.mp reads
  obtain ⟨resolvedFront, resolvedBack, resolvesFront, resolvesBack, rfl⟩ :=
    mapM_append_eq_ok.mp settles.resolves
  obtain ⟨showsFront, showsBack⟩ := List.forall_mem_append.mp settles.shows
  rw [List.mapM_map] at resolvesBack
  exact ⟨⟨first, resolvedFront, readsFront, resolvesFront, showsFront⟩,
    second, resolvedBack, readsBack, resolvesBack, showsBack⟩

/-- **Texts are resolved piece by piece.** Let no hole lie on both sides of the place where two
texts meet. Their references are those of the first, then those of the second, moved behind it. If
they settle in a context, then under every policy that puts something in the place of a reference
without a value, what the two texts are resolved to together is what the one and the other are, one
behind the other; and so are the paths that lead nowhere, without repeats. -/
theorem resolve_append (clear : Token.IsClear (front ++ back).toList front.length) :
    references (front ++ back) = (do
      let first ← references front
      return first ++ (← references back).map (Reference.moved front.length)) ∧
    ∀ (resolver : Resolver) (source : Context.Source) (context : Context) (name : Option String)
      (policy : Policy) (found : List Reference) (resolutions : List Resolution),
      source.load = .ok context → resolver.policy.chosen name = .ok policy → policy ≠ .raise →
      resolver.Settles (front ++ back) source found resolutions →
        ∃ (whole first second : Resolution) (one other : String) (paths more : List String),
          resolver.resolve (.text (front ++ back)) source name = .ok whole ∧
          resolver.resolve (.text front) source name = .ok first ∧
          resolver.resolve (.text back) source name = .ok second ∧
          first.value = .text one ∧ second.value = .text other ∧
          whole.value = .text (one ++ other) ∧
          resolver.unresolvedPaths front source = .ok paths ∧
          resolver.unresolvedPaths back source = .ok more ∧
          resolver.unresolvedPaths (front ++ back) source = .ok (paths ++ more).eraseDups := by
  refine ⟨references_append clear, ?_⟩
  intro resolver source context name policy found resolutions loads chosen lenient settles
  obtain ⟨⟨_, _, settlesFront⟩, _, _, settlesBack⟩ := Settles.of_append clear settles
  obtain ⟨first, readFront, -⟩ := settlesFront.exists_ofText loads
  obtain ⟨second, readBack, -⟩ := settlesBack.exists_ofText loads
  have readWhole := Filling.ofText_append clear readFront readBack
  have ends {text : String} {fillings : List Filling}
      (read : Filling.ofText resolver.registry context.merged text = .ok fillings) :
      resolver.resolve (.text text) source name =
        .ok (Filling.resolutionOf policy text fillings) := by
    rw [resolve_eq_outcome loads read chosen, Filling.outcome_of_ne_raise lenient]
  have missing := unresolvedPaths_eq loads readWhole
  rw [Filling.unresolvedPaths_append_moved] at missing
  exact ⟨_, _, _, _, _, _, _, ends readWhole, ends readFront, ends readBack, rfl, rfl,
    Filling.value_resolutionOf_append policy readFront, unresolvedPaths_eq loads readFront,
    unresolvedPaths_eq loads readBack, missing⟩

/-- A brace at the end of one text and braces at the beginning of the next make no hole. -/
theorem resolve_append_braces :
    let front := "{{b}} {{a}}\x7b"
    let back := "\x7d\x7d{{b|first}}"
    let source : Context.Source := .live ⟨[], [("a", .text "{{b}}")], []⟩
    Token.IsClear (front ++ back).toList front.length ∧
      ∃ (whole first second : Resolution) (one other : String),
        default.resolve (.text (front ++ back)) source (some "keep") = .ok whole ∧
        default.resolve (.text front) source (some "keep") = .ok first ∧
        default.resolve (.text back) source (some "keep") = .ok second ∧
        first.value = .text one ∧ second.value = .text other ∧
        whole.value = .text (one ++ other) ∧
        default.unresolvedPaths (front ++ back) source = .ok ["b"] := by
  intro front back source
  have reads : references ("{{b}} {{a}}\x7b" ++ "\x7d\x7d{{b|first}}") = .ok
      [⟨"{{b}}", "b", ["b"], [⟨"b", []⟩], [], 0, 5⟩,
        ⟨"{{a}}", "a", ["a"], [⟨"a", []⟩], [], 6, 11⟩,
        ⟨"{{b|first}}", "b", ["b"], [⟨"b", []⟩], [⟨"first", [], "first"⟩], 14, 25⟩] := rfl
  have clear := (isClear_iff reads "{{b}} {{a}}\x7b".length).mpr (by decide)
  have settles : default.Settles (front ++ back) source _
      [⟨.undefined, false, [.unresolvedPath "b"], ["b"]⟩, ⟨.text "{{b}}", true, [], []⟩,
        ⟨.undefined, false, [.unresolvedPath "b"], ["b"]⟩] :=
    ⟨reads, rfl, List.forall_mem_cons.mpr ⟨⟨_, rfl⟩, List.forall_mem_cons.mpr ⟨⟨_, rfl⟩,
      List.forall_mem_singleton.mpr ⟨_, rfl⟩⟩⟩⟩
  obtain ⟨whole, first, second, one, other, paths, more, together, left, right, isOne, isOther,
    both, pathsFront, pathsBack, missing⟩ :=
    (resolve_append clear).2 default source _ (some "keep") .keep _ _ rfl rfl nofun settles
  obtain rfl : ["b"] = paths := Except.ok.inj pathsFront
  obtain rfl : ["b"] = more := Except.ok.inj pathsBack
  exact ⟨clear, whole, first, second, one, other, together, left, right, isOne, isOther, both,
    missing⟩

end Resolver
end Stencil
