import Stencil.Proofs.Resolve.Filling

/-!
# The memory of a pass

A pass over a text resolves each distinct hole once and remembers what it has put in its place.
`Memo.Holds` says what the memory knows of the fillings passed so far: their texts under the holes
as written, what was reported for each hole once, and the paths that led nowhere. One hole keeps it
(`Memo.Holds.substitute_eq_ok`), and so does a whole pass (`Memo.Holds.substituteAll_eq_ok`). The
main statement is `resolveText_eq`: the pass yields what resolving every reference on its own does,
and ends with the same fault where that ends with one.

A pass asks registry and values only for what its holes do, so two that fill every hole alike, or
only resolve its reference alike, make the same of the text (`resolveText_congr_of_substitute`,
`resolveText_congr_of_resolve`).
-/

namespace Stencil

variable {registry : Registry} {values : Fields Value} {policy : Policy}

namespace Memo

/-- A memory of fillings passed, each of a hole of the text. -/
structure Holds (registry : Registry) (values : Fields Value) (policy : Policy) (memo : Memo)
    (passed : List Filling) : Prop where
  filled : ∀ filling ∈ passed,
    ∃ position body, Filling.ofHole registry values position body = .ok filling
  replacements : ∀ raw, Fields.get? memo.replacements raw =
    (passed.find? (·.reference.raw == raw)).map (·.replacement policy)
  diagnostics : memo.diagnostics = Filling.diagnostics passed
  unresolved : memo.unresolved = Filling.unresolvedPaths passed
  undefined : memo.undefined.eraseDups = Filling.undefinedPaths passed

namespace Holds

theorem empty (registry : Registry) (values : Fields Value) (policy : Policy) :
    Memo.empty.Holds registry values policy [] where
  filled := by simp
  replacements := by simp [Memo.empty, Fields.get?]
  diagnostics := rfl
  unresolved := rfl
  undefined := rfl

variable {memo : Memo} {passed : List Filling}

/-- A memory stays as it is when a hole is met again. -/
theorem repeated (holds : memo.Holds registry values policy passed) {position : Nat}
    {body : List Char} {filling known : Filling}
    (read : Filling.ofHole registry values position body = .ok filling) (member : known ∈ passed)
    (same : known.reference.raw = filling.reference.raw) :
    memo.Holds registry values policy (passed ++ [filling]) := by
  obtain ⟨other, otherBody, there⟩ := holds.filled known member
  obtain ⟨path, resolution, -⟩ := Filling.alike_of_raw_eq there read same
  refine ⟨?_, ?_, ?_, ?_, ?_⟩
  · intro item among
    rcases List.mem_append.mp among with earlier | last
    · exact holds.filled item earlier
    · rw [List.mem_singleton.mp last]
      exact ⟨position, body, read⟩
  · intro raw
    rw [holds.replacements, List.find?_append]
    by_cases asked : filling.reference.raw = raw
    · obtain ⟨first, found⟩ : ∃ first, passed.find? (·.reference.raw == raw) = some first :=
        Option.isSome_iff_exists.mp (List.find?_isSome.mpr ⟨known, member, by simp [same, asked]⟩)
      simp [found]
    · simp [asked]
  · have seen : filling.reference.raw ∈ passed.map (·.reference.raw) :=
      List.mem_map.mpr ⟨known, member, same⟩
    rw [holds.diagnostics, Filling.diagnostics, Filling.diagnostics, firstOn_concat, if_pos seen]
  · rw [holds.unresolved, Filling.unresolvedPaths, Filling.unresolvedPaths,
      Filling.pathsWhere_concat, if_neg]
    rintro ⟨picked, fresh⟩
    exact fresh (Filling.mem_pathsWhere.mpr ⟨known, member, by rwa [resolution], path⟩)
  · rw [holds.undefined, Filling.undefinedPaths, Filling.undefinedPaths,
      Filling.pathsWhere_concat, if_neg]
    rintro ⟨picked, fresh⟩
    exact fresh (Filling.mem_pathsWhere.mpr ⟨known, member, by rwa [resolution], path⟩)

/-- A memory grows when a hole is met for the first time. -/
theorem record (holds : memo.Holds registry values policy passed) {position : Nat}
    {body : List Char} {filling : Filling}
    (read : Filling.ofHole registry values position body = .ok filling)
    (fresh : filling.reference.raw ∉ passed.map (·.reference.raw)) :
    (memo.record policy filling).Holds registry values policy (passed ++ [filling]) := by
  refine ⟨?_, ?_, ?_, ?_, ?_⟩
  · intro item among
    rcases List.mem_append.mp among with earlier | last
    · exact holds.filled item earlier
    · rw [List.mem_singleton.mp last]
      exact ⟨position, body, read⟩
  · intro raw
    rw [Memo.record, List.find?_append]
    by_cases asked : raw = filling.reference.raw
    · have absent : passed.find? (·.reference.raw == raw) = none := by
        refine List.find?_eq_none.mpr fun item member equal => fresh ?_
        rw [← asked, ← eq_of_beq equal]
        exact List.mem_map_of_mem member
      rw [absent, asked, Fields.get?_set_self]
      simp
    · rw [Fields.get?_set_of_ne _ _ asked, holds.replacements]
      simp [Ne.symm asked]
  · rw [Memo.record, holds.diagnostics, Filling.diagnostics, Filling.diagnostics, firstOn_concat,
      if_neg fresh, List.flatMap_append, List.flatMap_singleton]
  · rw [Memo.record, holds.unresolved, Filling.unresolvedPaths, Filling.unresolvedPaths,
      Filling.pathsWhere_concat]
    cases filling.resolution.resolved <;> simp
  · have remembered := holds.undefined
    rw [Filling.undefinedPaths] at remembered
    have known : filling.reference.path ∈ memo.undefined ↔
        filling.reference.path ∈ Filling.pathsWhere (·.resolution.value.isUndefined) passed := by
      rw [← List.mem_eraseDups, remembered]
    rw [Memo.record, Filling.undefinedPaths, Filling.pathsWhere_concat]
    cases filling.resolution.value.isUndefined with
    | false => simpa using remembered
    | true => simp [eraseDups_concat, known, remembered]

/-- What is remembered of a source is the replacement of a reference that was passed. -/
theorem exists_of_get? (holds : memo.Holds registry values policy passed) {raw replacement : String}
    (remembered : Fields.get? memo.replacements raw = some replacement) :
    ∃ known ∈ passed, known.reference.raw = raw ∧ known.replacement policy = replacement := by
  rw [holds.replacements] at remembered
  obtain ⟨known, found, same⟩ := Option.map_eq_some_iff.mp remembered
  exact ⟨known, List.mem_of_find?_eq_some found, by simpa using List.find?_some found, same⟩

/-- **One hole.** What is put in the place of a hole is the text of its own filling, whether it is
remembered or made, and the memory then holds that filling too. -/
theorem substitute_eq_ok (holds : memo.Holds registry values policy passed) {position : Nat}
    {body : List Char} {filling : Filling}
    (read : Filling.ofHole registry values position body = .ok filling) :
    ∃ next, memo.substitute registry policy values position body =
        .ok (filling.replacement policy, next) ∧
      next.Holds registry values policy (passed ++ [filling]) := by
  have written := (Reference.span_of_ofHole (Filling.ofHole_eq_ok_iff.mp read).1).1
  rw [substitute, ← written]
  cases remembered : Fields.get? memo.replacements filling.reference.raw with
  | some replacement =>
    obtain ⟨known, member, same, rfl⟩ := holds.exists_of_get? remembered
    obtain ⟨other, otherBody, there⟩ := holds.filled known member
    obtain ⟨-, -, shown⟩ := Filling.alike_of_raw_eq there read same
    refine ⟨memo, ?_, holds.repeated read member same⟩
    rw [Filling.replacement, Filling.replacement, shown, same]
  | none =>
    refine ⟨memo.record policy filling, by rw [read]; rfl, holds.record read fun known => ?_⟩
    obtain ⟨earlier, member, same⟩ := List.mem_map.mp known
    rw [holds.replacements, Option.map_eq_none_iff, List.find?_eq_none] at remembered
    exact remembered earlier member (by simpa using same)

/-- A hole that has no filling ends the pass. -/
theorem substitute_eq_error (holds : memo.Holds registry values policy passed) {position : Nat}
    {body : List Char} {fault : Fault}
    (refused : Filling.ofHole registry values position body = .error fault) :
    memo.substitute registry policy values position body = .error fault := by
  rw [substitute]
  cases remembered : Fields.get? memo.replacements (String.ofList (Token.holeSource body)) with
  | some replacement =>
    -- a hole that is remembered had a filling, so it has one here
    obtain ⟨known, member, same, -⟩ := holds.exists_of_get? remembered
    obtain ⟨other, otherBody, there⟩ := holds.filled known member
    rw [Filling.ofHole_of_raw_eq there same position] at refused
    cases refused
  | none =>
    dsimp only
    rw [refused]
    rfl

/-- **A whole pass.** The tokens of the rest of a text become that rest with every reference
replaced by the text of its own filling, and the memory then holds those fillings too. -/
theorem substituteAll_eq_ok (holds : memo.Holds registry values policy passed) {text : List Char}
    {position : Nat} {tokens : List Token} {fillings : List Filling}
    (spelled : text.drop position = tokens.flatMap Token.source)
    (read : Filling.ofTokens registry values position tokens = .ok fillings) :
    ∃ last, substituteAll registry policy values memo position tokens =
        .ok (splice text position (Filling.replacements policy fillings), last) ∧
      last.Holds registry values policy (passed ++ fillings) := by
  induction tokens generalizing memo passed position fillings with
  | nil =>
    cases read
    refine ⟨memo, ?_, by rwa [List.append_nil]⟩
    rw [Filling.replacements, List.map_nil, splice, spelled]
    rfl
  | cons token rest ih =>
    rw [List.flatMap_cons] at spelled
    cases token with
    | char c =>
      have readRest : Filling.ofTokens registry values (position + 1) rest = .ok fillings := read
      have spelledRest : text.drop (position + 1) = rest.flatMap Token.source := by
        rw [← List.drop_drop, spelled, Token.source, List.singleton_append, List.drop_one,
          List.tail_cons]
      obtain ⟨last, passes, holdsLast⟩ := ih holds spelledRest readRest
      refine ⟨last, ?_, holdsLast⟩
      have behind : ∀ pair ∈ Filling.replacements policy fillings, position < pair.1.start := by
        intro pair member
        obtain ⟨filling, among, rfl⟩ := List.mem_map.mp member
        exact Filling.le_start_of_mem_ofTokens readRest among
      rw [substituteAll, passes, splice_char spelled behind]
      rfl
    | hole body =>
      obtain ⟨filling, hereRead, restRead⟩ := Outcome.bind_eq_ok.mp read
      obtain ⟨others, othersRead, same⟩ := Outcome.bind_eq_ok.mp restRead
      cases same
      have spelledRest : text.drop (position + body.length + 4) = rest.flatMap Token.source := by
        rw [Nat.add_assoc, ← Token.length_holeSource, ← List.drop_drop, spelled, Token.source,
          List.drop_left]
      obtain ⟨next, substitutes, holdsNext⟩ := holds.substitute_eq_ok hereRead
      obtain ⟨last, passes, holdsLast⟩ := ih holdsNext spelledRest othersRead
      refine ⟨last, ?_, by rwa [List.append_assoc, List.singleton_append] at holdsLast⟩
      obtain ⟨-, starts, stops⟩ := Reference.span_of_ofHole (Filling.ofHole_eq_ok_iff.mp hereRead).1
      rw [substituteAll, substitutes, Outcome.ok_bind]
      dsimp only
      rw [passes, Filling.replacements_cons, ← starts, splice_reference, stops, starts]
      rfl

/-- A pass ends with the fault of the first hole that has no filling. -/
theorem substituteAll_eq_error (holds : memo.Holds registry values policy passed)
    {position : Nat} {tokens : List Token} {fault : Fault}
    (refused : Filling.ofTokens registry values position tokens = .error fault) :
    substituteAll registry policy values memo position tokens = .error fault := by
  induction tokens generalizing memo passed position with
  | nil => cases refused
  | cons token rest ih =>
    cases token with
    | char c =>
      rw [substituteAll, ih holds refused]
      rfl
    | hole body =>
      obtain early | ⟨filling, hereRead, restRefused⟩ := Outcome.bind_eq_error.mp refused
      · rw [substituteAll, holds.substitute_eq_error early]
        rfl
      · obtain late | ⟨others, -, impossible⟩ := Outcome.bind_eq_error.mp restRefused
        · obtain ⟨next, substitutes, holdsNext⟩ := holds.substitute_eq_ok hereRead
          rw [substituteAll, substitutes, Outcome.ok_bind]
          dsimp only
          rw [ih holdsNext late]
          rfl
        · cases impossible

end Holds
end Memo

/-! ### Passes that go alike -/

section Alike

variable {first second : Registry} {left right : Fields Value}

/-- A hole has the same filling if its reference is resolved alike. -/
theorem Filling.ofHole_congr_of_resolve {position : Nat} {body : List Char}
    (alike : ∀ reference, Reference.ofHole position body = .ok reference →
      reference.resolve first left = reference.resolve second right) :
    ofHole first left position body = ofHole second right position body := by
  rw [ofHole, ofHole]
  refine Outcome.bind_congr fun reference read => ?_
  rw [ofReference, ofReference, alike reference read]

/-- The holes of a text are filled alike if each of them is. -/
theorem Memo.substituteAll_congr_of_substitute {memo : Memo} {position : Nat} {tokens : List Token}
    (alike : ∀ body ∈ Token.bodies tokens, ∀ (memo : Memo) (position : Nat),
      memo.substitute first policy left position body =
        memo.substitute second policy right position body) :
    substituteAll first policy left memo position tokens =
      substituteAll second policy right memo position tokens := by
  induction tokens generalizing memo position with
  | nil => rfl
  | cons token rest ih =>
    cases token with
    | char c => rw [substituteAll, substituteAll, ih alike]
    | hole body =>
      obtain ⟨here, behind⟩ := List.forall_mem_cons.mp alike
      rw [substituteAll, substituteAll, here]
      simp only [ih behind]

/-- Where every hole of a text is filled alike, whatever is remembered, the text is resolved
alike. -/
theorem resolveText_congr_of_substitute {text : String}
    (alike : ∀ body ∈ Token.bodies (Token.tokens text.toList), ∀ (memo : Memo) (position : Nat),
      memo.substitute first policy left position body =
        memo.substitute second policy right position body) :
    resolveText first policy left text = resolveText second policy right text := by
  rw [resolveText, resolveText, Memo.substituteAll_congr_of_substitute alike]

/-- Where the reference in every hole of a text is resolved alike, the text is. -/
theorem resolveText_congr_of_resolve {text : String}
    (alike : ∀ body ∈ Token.bodies (Token.tokens text.toList), ∀ position reference,
      Reference.ofHole position body = .ok reference →
        reference.resolve first left = reference.resolve second right) :
    resolveText first policy left text = resolveText second policy right text := by
  refine resolveText_congr_of_substitute fun body hole memo position => ?_
  rw [Memo.substitute, Memo.substitute,
    Filling.ofHole_congr_of_resolve (alike body hole position)]

end Alike

/-- **Resolving a text is resolving its references one by one.** The pass with a memory ends as the
fillings of all references do, each made on its own, and with the fault of the first reference that
has none. -/
theorem resolveText_eq (registry : Registry) (policy : Policy) (values : Fields Value)
    (text : String) :
    resolveText registry policy values text =
      Filling.ofText registry values text >>= Filling.outcome policy text := by
  rw [resolveText, Filling.ofText]
  cases read : Filling.ofTokens registry values 0 (Token.tokens text.toList) with
  | error fault =>
    rw [(Memo.Holds.empty registry values policy).substituteAll_eq_error read]
    rfl
  | ok fillings =>
    have spelled : text.toList.drop 0 = (Token.tokens text.toList).flatMap Token.source := by
      rw [List.drop_zero, Token.source_tokens]
    obtain ⟨last, passes, holds⟩ :=
      (Memo.Holds.empty registry values policy).substituteAll_eq_ok spelled read
    rw [List.nil_append] at holds
    have none : last.undefined ≠ [] ↔ Filling.undefinedPaths fillings ≠ [] := by
      rw [← holds.undefined]
      cases last.undefined <;> simp [List.eraseDups_cons]
    rw [passes, Outcome.ok_bind, Outcome.ok_bind, Filling.outcome, Filling.resolutionOf]
    dsimp only
    rw [holds.undefined, holds.unresolved, holds.diagnostics]
    simp only [none]
    rfl

end Stencil
