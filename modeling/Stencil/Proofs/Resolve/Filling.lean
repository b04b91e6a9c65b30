import Stencil.Proofs.FirstOccurrence
import Stencil.Proofs.Template.Span
import Stencil.Resolve.Text

/-!
# Fillings one by one

What resolving a text should yield, told without a memory: every reference is resolved on its own,
wherever it stands (`Filling.ofTokens`), and the texts of the references are set between the parts
of the text that they leave (`splice`). `Filling.outcome` is the resolution that the fillings make.
-/

namespace Stencil

/-- The parts of a text that references leave, from a position on, with texts in place of the
references. -/
def splice (text : List Char) : (position : Nat) → List (Reference × String) → List Char
  | position, [] => text.drop position
  | position, (reference, replacement) :: rest =>
    text.extract position reference.start ++ replacement.toList ++ splice text reference.stop rest

/-- A character in front of every reference stays. -/
theorem splice_char {text : List Char} {position : Nat} {c : Char} {rest : List Char}
    {pairs : List (Reference × String)} (front : text.drop position = c :: rest)
    (behind : ∀ pair ∈ pairs, position < pair.1.start) :
    splice text position pairs = c :: splice text (position + 1) pairs := by
  have next : text.drop (position + 1) = rest := by rw [← List.tail_drop, front, List.tail_cons]
  cases pairs with
  | nil => rw [splice, splice, front, next]
  | cons pair others =>
    have ahead := behind pair List.mem_cons_self
    obtain ⟨size, far⟩ := Nat.exists_eq_add_of_le ahead
    have wide : pair.1.start - position = size + 1 := by omega
    have narrow : pair.1.start - (position + 1) = size := by omega
    rw [splice, splice, List.extract_eq_take_drop, List.extract_eq_take_drop, front, next, wide,
      narrow, List.take_succ_cons, List.append_assoc, List.append_assoc, List.cons_append]

/-- A reference is replaced, and the filling goes on behind it. -/
theorem splice_reference (text : List Char) (reference : Reference) (replacement : String)
    (rest : List (Reference × String)) :
    splice text reference.start ((reference, replacement) :: rest) =
      replacement.toList ++ splice text reference.stop rest := by
  rw [splice, List.extract_eq_take_drop, Nat.sub_self, List.take_zero, List.nil_append]

namespace Filling

variable {registry : Registry} {values : Fields Value} {policy : Policy}

/-- The fillings of the holes among tokens that begin at a position, each hole on its own. -/
def ofTokens (registry : Registry) (values : Fields Value) :
    (position : Nat) → List Token → Outcome (List Filling)
  | _, [] => .ok []
  | position, .char _ :: rest => ofTokens registry values (position + 1) rest
  | position, .hole body :: rest => do
    let filling ← ofHole registry values position body
    return filling :: (← ofTokens registry values (position + body.length + 4) rest)

/-- The fillings of the references of a text, each on its own. -/
def ofText (registry : Registry) (values : Fields Value) (text : String) :
    Outcome (List Filling) :=
  ofTokens registry values 0 (Token.tokens text.toList)

/-- References with the texts put in their places. -/
def replacements (policy : Policy) (fillings : List Filling) : List (Reference × String) :=
  fillings.map fun filling => (filling.reference, filling.replacement policy)

theorem replacements_cons (policy : Policy) (filling : Filling) (others : List Filling) :
    replacements policy (filling :: others) =
      (filling.reference, filling.replacement policy) :: replacements policy others :=
  rfl

/-- What is reported on fillings, once for each raw text. -/
def diagnostics (fillings : List Filling) : List Diagnostic :=
  (firstOn (·.reference.raw) fillings).flatMap (·.resolution.diagnostics)

/-- The paths of the fillings that a test picks, without repeats. -/
def pathsWhere (picked : Filling → Bool) (fillings : List Filling) : List String :=
  ((fillings.filter picked).map (·.reference.path)).eraseDups

/-- The paths of the references that are not resolved, each once. -/
def unresolvedPaths (fillings : List Filling) : List String :=
  pathsWhere (!·.resolution.resolved) fillings

/-- The paths of the references that ended without a value, without repeats. -/
def undefinedPaths (fillings : List Filling) : List String :=
  pathsWhere (·.resolution.value.isUndefined) fillings

/-- The resolution of a text whose references have the given fillings. -/
def resolutionOf (policy : Policy) (text : String) (fillings : List Filling) : Resolution where
  value := .text (String.ofList (splice text.toList 0 (replacements policy fillings)))
  resolved := (unresolvedPaths fillings).isEmpty
  diagnostics := diagnostics fillings
  unresolvedPaths := unresolvedPaths fillings

/-- What resolving a text ends in whose references have the given fillings. -/
def outcome (policy : Policy) (text : String) (fillings : List Filling) : Outcome Resolution :=
  if policy = .raise ∧ undefinedPaths fillings ≠ [] then
    .error (.unresolved (undefinedPaths fillings) text)
  else .ok (resolutionOf policy text fillings)

/-- Policies other than `raise` end in a resolution. -/
theorem outcome_of_ne_raise {policy : Policy} (lenient : policy ≠ .raise) (text : String)
    (fillings : List Filling) :
    outcome policy text fillings = .ok (resolutionOf policy text fillings) :=
  if_neg fun strict => lenient strict.1

/-- A path is listed if and only if a picked filling has it. -/
theorem mem_pathsWhere {picked : Filling → Bool} {fillings : List Filling} {path : String} :
    path ∈ pathsWhere picked fillings ↔
      ∃ filling ∈ fillings, picked filling = true ∧ filling.reference.path = path := by
  simp only [pathsWhere, List.mem_eraseDups, List.mem_map, List.mem_filter, and_assoc]

theorem pathsWhere_eq_nil_iff {picked : Filling → Bool} {fillings : List Filling} :
    pathsWhere picked fillings = [] ↔ ∀ filling ∈ fillings, picked filling = false := by
  rw [List.eq_nil_iff_forall_not_mem]
  constructor
  · intro none filling member
    by_contra taken
    rw [Bool.not_eq_false] at taken
    exact none _ (mem_pathsWhere.mpr ⟨filling, member, taken, rfl⟩)
  · intro refused path listed
    obtain ⟨filling, member, taken, -⟩ := mem_pathsWhere.mp listed
    rw [refused filling member] at taken
    cases taken

/-- A further filling adds its path at the end, if it is picked and the path is new. -/
theorem pathsWhere_concat (picked : Filling → Bool) (fillings : List Filling) (last : Filling) :
    pathsWhere picked (fillings ++ [last]) =
      if picked last = true ∧ last.reference.path ∉ pathsWhere picked fillings then
        pathsWhere picked fillings ++ [last.reference.path]
      else pathsWhere picked fillings := by
  by_cases taken : picked last = true
  · have kept : [last].filter picked = [last] := by simp [taken]
    rw [pathsWhere, List.filter_append, kept, List.map_append, List.map_singleton, eraseDups_concat]
    simp only [taken, pathsWhere, List.mem_eraseDups, true_and, ite_not]
  · rw [if_neg fun both => taken both.1, pathsWhere, List.filter_append]
    simp [taken, pathsWhere]

/-- A reference has a filling if it is resolved and its value can be shown. -/
theorem ofReference_eq_ok_iff {reference : Reference} {filling : Filling} :
    ofReference registry values reference = .ok filling ↔
      filling.reference = reference ∧
        reference.resolve registry values = .ok filling.resolution ∧
        filling.resolution.value.shown? = .ok filling.shown := by
  rw [ofReference, Outcome.bind_eq_ok]
  constructor
  · rintro ⟨resolution, resolves, rest⟩
    obtain ⟨shown, shows, same⟩ := Outcome.bind_eq_ok.mp rest
    cases same
    exact ⟨rfl, resolves, shows⟩
  · rintro ⟨rfl, resolves, shows⟩
    exact ⟨_, resolves, Outcome.bind_eq_ok.mpr ⟨_, shows, rfl⟩⟩

/-- A hole has a filling if it spells a reference and the reference has one. -/
theorem ofHole_eq_ok_iff {position : Nat} {body : List Char} {filling : Filling} :
    ofHole registry values position body = .ok filling ↔
      Reference.ofHole position body = .ok filling.reference ∧
        ofReference registry values filling.reference = .ok filling := by
  rw [ofHole, Outcome.bind_eq_ok]
  constructor
  · rintro ⟨reference, read, filled⟩
    obtain ⟨rfl, -⟩ := ofReference_eq_ok_iff.mp filled
    exact ⟨read, filled⟩
  · rintro ⟨read, filled⟩
    exact ⟨_, read, filled⟩

/-- The same hole elsewhere has the same filling, but for its position. -/
theorem ofHole_elsewhere {position : Nat} {body : List Char} {filling : Filling}
    (read : ofHole registry values position body = .ok filling) (other : Nat) :
    ofHole registry values other body = .ok { filling with
      reference := { filling.reference with
        start := other, stop := other + body.length + 4 } } := by
  obtain ⟨hereRead, filled⟩ := ofHole_eq_ok_iff.mp read
  obtain ⟨-, resolves, shows⟩ := ofReference_eq_ok_iff.mp filled
  exact ofHole_eq_ok_iff.mpr ⟨Reference.ofHole_elsewhere hereRead other,
    ofReference_eq_ok_iff.mpr ⟨rfl, resolves, shows⟩⟩

/-- Holes with one source have fillings that differ only in their places. -/
theorem ofHole_of_raw_eq {other : Nat} {body otherBody : List Char} {known : Filling}
    (there : ofHole registry values other otherBody = .ok known)
    (same : known.reference.raw = String.ofList (Token.holeSource body)) (position : Nat) :
    ofHole registry values position body = .ok { known with
      reference := { known.reference with
        start := position, stop := position + body.length + 4 } } := by
  have written := (Reference.span_of_ofHole (ofHole_eq_ok_iff.mp there).1).1
  rw [written, String.ofList_inj] at same
  obtain rfl : otherBody = body := by simpa [Token.holeSource] using same
  exact ofHole_elsewhere there position

/-- Fillings of holes that are written alike differ in their positions only. -/
theorem alike_of_raw_eq {position other : Nat} {body otherBody : List Char}
    {known filling : Filling} (there : ofHole registry values other otherBody = .ok known)
    (here : ofHole registry values position body = .ok filling)
    (same : known.reference.raw = filling.reference.raw) :
    known.reference.path = filling.reference.path ∧ known.resolution = filling.resolution ∧
      known.shown = filling.shown := by
  have written := (Reference.span_of_ofHole (ofHole_eq_ok_iff.mp here).1).1
  cases here.symm.trans (ofHole_of_raw_eq there (same.trans written) position)
  exact ⟨rfl, rfl, rfl⟩

/-- Holes among tokens have fillings if they are read as references and each reference has one. -/
theorem ofTokens_eq_ok_iff {position : Nat} {tokens : List Token} {fillings : List Filling} :
    ofTokens registry values position tokens = .ok fillings ↔
      Reference.ofTokens position tokens = .ok (fillings.map (·.reference)) ∧
        ∀ filling ∈ fillings, ofReference registry values filling.reference = .ok filling := by
  induction tokens generalizing position fillings with
  | nil =>
    constructor
    · intro read
      cases read
      exact ⟨rfl, by simp⟩
    · rintro ⟨read, -⟩
      rw [List.map_eq_nil_iff.mp (Except.ok.inj read).symm]
      rfl
  | cons token rest ih =>
    cases token with
    | char c => exact ih
    | hole body =>
      rw [ofTokens, Outcome.bind_eq_ok, Reference.ofTokens_hole_eq_ok]
      constructor
      · rintro ⟨filling, hereRead, restRead⟩
        obtain ⟨others, othersRead, same⟩ := Outcome.bind_eq_ok.mp restRead
        cases same
        obtain ⟨read, filled⟩ := ofHole_eq_ok_iff.mp hereRead
        obtain ⟨readRest, filledRest⟩ := ih.mp othersRead
        exact ⟨⟨_, _, read, readRest, rfl⟩, List.forall_mem_cons.mpr ⟨filled, filledRest⟩⟩
      · rintro ⟨⟨reference, others, hereRead, restRead, same⟩, filled⟩
        obtain ⟨filling, remaining, rfl, rfl, rfl⟩ := List.map_eq_cons_iff.mp same
        rw [List.forall_mem_cons] at filled
        exact ⟨filling, ofHole_eq_ok_iff.mpr ⟨hereRead, filled.1⟩,
          Outcome.bind_eq_ok.mpr ⟨remaining, ih.mpr ⟨restRead, filled.2⟩, rfl⟩⟩

/-- A text has fillings if its references can be read and each has its own. -/
theorem ofText_eq_ok_iff {text : String} {fillings : List Filling} :
    ofText registry values text = .ok fillings ↔
      references text = .ok (fillings.map (·.reference)) ∧
        ∀ filling ∈ fillings, ofReference registry values filling.reference = .ok filling :=
  ofTokens_eq_ok_iff

/-- References that are resolved and shown without a fault have fillings. -/
theorem exists_of_mapM {found : List Reference} {resolutions : List Resolution}
    {texts : List (Option String)}
    (resolves : found.mapM (Reference.resolve registry values) = .ok resolutions)
    (shows : resolutions.mapM (·.value.shown?) = .ok texts) :
    ∃ fillings : List Filling, found = fillings.map (·.reference) ∧
      resolutions = fillings.map (·.resolution) ∧ texts = fillings.map (·.shown) ∧
      ∀ filling ∈ fillings, ofReference registry values filling.reference = .ok filling := by
  induction found generalizing resolutions texts with
  | nil =>
    cases resolves
    cases shows
    exact ⟨[], rfl, rfl, rfl, by simp⟩
  | cons reference rest ih =>
    obtain ⟨resolution, others, here, restResolves, rfl⟩ := Outcome.mapM_cons_eq_ok.mp resolves
    obtain ⟨shown, otherTexts, hereShows, restShows, rfl⟩ := Outcome.mapM_cons_eq_ok.mp shows
    obtain ⟨fillings, rfl, rfl, rfl, filled⟩ := ih restResolves restShows
    have own : ofReference registry values reference = .ok ⟨reference, resolution, shown⟩ :=
      ofReference_eq_ok_iff.mpr ⟨rfl, here, hereShows⟩
    exact ⟨⟨reference, resolution, shown⟩ :: fillings, rfl, rfl, rfl,
      List.forall_mem_cons.mpr ⟨own, filled⟩⟩

/-- A text has fillings if its references are read, resolved and shown. -/
theorem exists_ofText {text : String} {found : List Reference} {resolutions : List Resolution}
    {texts : List (Option String)} (reads : references text = .ok found)
    (resolves : found.mapM (Reference.resolve registry values) = .ok resolutions)
    (shows : resolutions.mapM (·.value.shown?) = .ok texts) :
    ∃ fillings, ofText registry values text = .ok fillings ∧
      found = fillings.map (·.reference) ∧ resolutions = fillings.map (·.resolution) ∧
      texts = fillings.map (·.shown) := by
  obtain ⟨fillings, rfl, rfl, rfl, filled⟩ := exists_of_mapM resolves shows
  exact ⟨fillings, ofText_eq_ok_iff.mpr ⟨reads, filled⟩, rfl, rfl, rfl⟩

/-- Fillings of tokens stand behind the position where the tokens begin. -/
theorem le_start_of_mem_ofTokens {position : Nat} {tokens : List Token} {fillings : List Filling}
    (read : ofTokens registry values position tokens = .ok fillings) {filling : Filling}
    (member : filling ∈ fillings) : position ≤ filling.reference.start := by
  have spanned := Reference.spans_of_ofTokens (ofTokens_eq_ok_iff.mp read).1
  have taken : (filling.reference.start, filling.reference.stop) ∈ Token.spans position tokens := by
    rw [← spanned, List.map_map]
    exact List.mem_map.mpr ⟨filling, member, rfl⟩
  exact (Token.le_of_mem_spans taken).1

end Filling
end Stencil
