import Stencil.Proofs.Outcome
import Stencil.Proofs.Template.Hole
import Stencil.Template.Reference

/-!
# Spans of references

The scan takes the holes of a text one behind the other, and every hole of the text stops where one
that was taken stops. The main statement is `references_spans`: the references of a text are holes
of it, ordered and apart, and for each position where a hole of the text stops there is exactly one
reference, the widest of the holes that stop there.
-/

namespace Stencil

namespace Token

/-- Where the holes among tokens start and stop, the tokens beginning at a position. -/
def spans : (position : Nat) → List Token → List (Nat × Nat)
  | _, [] => []
  | position, .char _ :: rest => spans (position + 1) rest
  | position, .hole body :: rest =>
    (position, position + body.length + 4) :: spans (position + body.length + 4) rest

/-- A span lies behind its start and has at least four characters. -/
theorem le_of_mem_spans {position : Nat} {tokens : List Token} {span : Nat × Nat}
    (taken : span ∈ spans position tokens) : position ≤ span.1 ∧ span.1 + 4 ≤ span.2 := by
  induction tokens generalizing position with
  | nil => cases taken
  | cons token rest ih =>
    cases token with
    | char c =>
      have bounds := ih taken
      omega
    | hole body =>
      rcases List.mem_cons.mp taken with rfl | later
      · dsimp only
        omega
      · have bounds := ih later
        omega

/-- Spans are in order and do not overlap. -/
theorem pairwise_spans (position : Nat) (tokens : List Token) :
    (spans position tokens).Pairwise fun earlier later =>
      earlier.1 < later.1 ∧ earlier.2 ≤ later.1 ∧ earlier.2 < later.2 := by
  induction tokens generalizing position with
  | nil => exact .nil
  | cons token rest ih =>
    cases token with
    | char c => exact ih (position + 1)
    | hole body =>
      refine .cons (fun span later => ?_) (ih _)
      have bounds := le_of_mem_spans later
      dsimp only
      omega

/-- What the scan takes of the rest of a text is a hole of the text. -/
theorem isHole_of_mem_spans (text front : List Char) {start stop : Nat}
    (taken : (start, stop) ∈ spans front.length (tokens text)) :
    IsHole (front ++ text) start stop := by
  induction text using tokens_induction generalizing front with
  | nil => cases taken
  | char c rest solid ih =>
    rw [tokens_cons solid] at taken
    have later := ih (front ++ [c]) (by rwa [List.length_append, List.length_singleton])
    rwa [List.append_assoc] at later
  | hole body rest found ih =>
    rw [tokens_hole found] at taken
    rcases List.mem_cons.mp taken with here | later
    · cases here
      rw [Nat.add_assoc, ← Nat.add_zero front.length, Nat.add_assoc, Nat.zero_add, isHole_append,
        isHole_zero_iff]
      exact ⟨body, found, rfl⟩
    · have behind := ih (front ++ holeSource body)
        (by rwa [List.length_append, length_holeSource, ← Nat.add_assoc])
      rwa [List.append_assoc] at behind

/-- Where a hole of the rest of a text stops, the scan takes one that starts with it or one
character earlier. -/
theorem exists_span_of_isHole (text front : List Char) {start stop : Nat}
    (hole : IsHole (front ++ text) start stop) (behind : front.length ≤ start) :
    ∃ first, (first, stop) ∈ spans front.length (tokens text) ∧
      (first = start ∨ first + 1 = start) := by
  induction text using tokens_induction generalizing front with
  | nil =>
    have outside : front[start]? = none := List.getElem?_eq_none behind
    have opens := hole.opens.1
    rw [List.append_nil, outside] at opens
    cases opens
  | char c rest solid ih =>
    rw [tokens_cons solid]
    rcases Nat.eq_or_lt_of_le behind with here | later
    · -- no hole begins with the character
      have room := hole.room
      obtain ⟨size, rfl⟩ := Nat.exists_eq_add_of_le (show front.length ≤ stop by omega)
      rw [← here, ← Nat.add_zero front.length, Nat.add_assoc, Nat.zero_add, isHole_append,
        isHole_zero_iff] at hole
      obtain ⟨body, found, -⟩ := hole
      rw [solid] at found
      cases found
    · have moved := ih (front ++ [c]) (by rwa [List.append_assoc])
        (by rw [List.length_append, List.length_singleton]; omega)
      rwa [List.length_append, List.length_singleton] at moved
  | hole body rest found ih =>
    rw [tokens_hole found]
    have taken : IsHole (front ++ (holeSource body ++ rest)) front.length
        (front.length + body.length + 4) :=
      isHole_of_mem_spans _ front (by rw [tokens_hole found]; exact List.mem_cons_self)
    rcases Nat.lt_trichotomy stop (front.length + body.length + 4) with early | same | late
    · -- a hole that stops inside the one taken would have to start in front of it
      have apart := hole.stop_le_start taken early
      have room := hole.room
      omega
    · subst same
      have close := taken.start_le_succ hole
      exact ⟨front.length, List.mem_cons_self, by omega⟩
    · have apart := taken.stop_le_start hole late
      obtain ⟨first, later, close⟩ := ih (front ++ holeSource body)
        (by rwa [List.append_assoc]) (by rw [List.length_append, length_holeSource]; omega)
      rw [List.length_append, length_holeSource, ← Nat.add_assoc] at later
      exact ⟨first, List.mem_cons_of_mem _ later, close⟩

end Token

namespace Reference

/-- A reference spans the hole that spells it. -/
theorem span_of_ofHole {position : Nat} {body : List Char} {reference : Reference}
    (read : ofHole position body = .ok reference) :
    reference.raw = String.ofList (Token.holeSource body) ∧ reference.start = position ∧
      reference.stop = position + body.length + 4 := by
  obtain ⟨segments, -, made⟩ := Outcome.bind_eq_ok.mp read
  cases made
  exact ⟨rfl, rfl, rfl⟩

/-- The segments of a reference are those of its path. -/
theorem parse_path {position : Nat} {body : List Char} {reference : Reference}
    (read : ofHole position body = .ok reference) :
    Path.parse reference.path = .ok reference.segments := by
  obtain ⟨segments, parsed, made⟩ := Outcome.bind_eq_ok.mp read
  rw [← Except.ok.inj made]
  exact parsed

/-- The path in the body of a hole. -/
def pathIn (body : List Char) : String :=
  String.ofList ((piecesOf body).head?.getD [])

/-- The path of a reference is that of its body. -/
theorem path_eq_pathIn {position : Nat} {body : List Char} {reference : Reference}
    (read : ofHole position body = .ok reference) : reference.path = pathIn body := by
  obtain ⟨segments, -, made⟩ := Outcome.bind_eq_ok.mp read
  rw [← Except.ok.inj made]
  rfl

/-- The same hole elsewhere spells the same reference, but for its position. -/
theorem ofHole_elsewhere {position : Nat} {body : List Char} {reference : Reference}
    (read : ofHole position body = .ok reference) (other : Nat) :
    ofHole other body =
      .ok { reference with start := other, stop := other + body.length + 4 } := by
  obtain ⟨segments, parsed, made⟩ := Outcome.bind_eq_ok.mp read
  rw [← Except.ok.inj made]
  exact Outcome.bind_eq_ok.mpr ⟨segments, parsed, rfl⟩

/-- A hole in front of other tokens spells the first reference. -/
theorem ofTokens_hole_eq_ok {position : Nat} {body : List Char} {rest : List Token}
    {found : List Reference} :
    ofTokens position (.hole body :: rest) = .ok found ↔
      ∃ reference others, ofHole position body = .ok reference ∧
        ofTokens (position + body.length + 4) rest = .ok others ∧ found = reference :: others := by
  rw [ofTokens, Outcome.bind_eq_ok]
  constructor
  · rintro ⟨reference, read, restRead⟩
    obtain ⟨others, othersRead, same⟩ := Outcome.bind_eq_ok.mp restRead
    cases same
    exact ⟨reference, others, read, othersRead, rfl⟩
  · rintro ⟨reference, others, read, othersRead, rfl⟩
    exact ⟨reference, read, Outcome.bind_eq_ok.mpr ⟨others, othersRead, rfl⟩⟩

/-- References span the holes of their tokens. -/
theorem spans_of_ofTokens {position : Nat} {tokens : List Token} {found : List Reference}
    (read : ofTokens position tokens = .ok found) :
    found.map (fun reference => (reference.start, reference.stop)) =
      Token.spans position tokens := by
  induction tokens generalizing position found with
  | nil =>
    cases read
    rfl
  | cons token rest ih =>
    cases token with
    | char c => exact ih read
    | hole body =>
      obtain ⟨reference, others, hereRead, restRead, rfl⟩ := ofTokens_hole_eq_ok.mp read
      obtain ⟨-, starts, stops⟩ := span_of_ofHole hereRead
      rw [List.map_cons, ih restRead, Token.spans, starts, stops]

/-- Every reference is read from a hole among the tokens, at the place where it starts. -/
theorem exists_ofHole_of_mem {position : Nat} {tokens : List Token} {found : List Reference}
    (read : ofTokens position tokens = .ok found) {reference : Reference}
    (member : reference ∈ found) :
    ∃ body ∈ Token.bodies tokens, ofHole reference.start body = .ok reference := by
  induction tokens generalizing position found with
  | nil =>
    cases read
    cases member
  | cons token rest ih =>
    cases token with
    | char c => exact ih read member
    | hole body =>
      obtain ⟨first, others, hereRead, restRead, rfl⟩ := ofTokens_hole_eq_ok.mp read
      rcases List.mem_cons.mp member with rfl | later
      · obtain ⟨-, starts, -⟩ := span_of_ofHole hereRead
        exact ⟨body, List.mem_cons_self, by rwa [starts]⟩
      · obtain ⟨inner, among, readInner⟩ := ih restRead later
        exact ⟨inner, List.mem_cons_of_mem _ among, readInner⟩

/-- A reference is written as the part of the text that it spans. -/
theorem raw_of_mem_ofTokens (front : List Char) {tokens : List Token} {found : List Reference}
    (read : ofTokens front.length tokens = .ok found) {reference : Reference}
    (member : reference ∈ found) :
    reference.raw.toList =
      (front ++ tokens.flatMap Token.source).extract reference.start reference.stop := by
  induction tokens generalizing front found with
  | nil =>
    cases read
    cases member
  | cons token rest ih =>
    rw [List.flatMap_cons, ← List.append_assoc]
    cases token with
    | char c =>
      exact ih (front ++ [c]) (by rwa [List.length_append, List.length_singleton]) member
    | hole body =>
      obtain ⟨first, others, hereRead, restRead, rfl⟩ := ofTokens_hole_eq_ok.mp read
      rcases List.mem_cons.mp member with rfl | later
      · obtain ⟨written, starts, stops⟩ := span_of_ofHole hereRead
        rw [written, starts, stops, Token.source, String.toList_ofList, List.extract_eq_take_drop,
          List.append_assoc, List.drop_left, Nat.add_assoc, Nat.add_sub_cancel_left,
          ← Token.length_holeSource, List.take_left]
      · refine ih (front ++ Token.holeSource body) ?_ later
        rwa [List.length_append, Token.length_holeSource, ← Nat.add_assoc]

/-- Holes are read as references one for one. -/
theorem ofTokens_eq_nil_iff {position : Nat} {tokens : List Token} {found : List Reference}
    (read : ofTokens position tokens = .ok found) : found = [] ↔ Token.bodies tokens = [] := by
  induction tokens generalizing position found with
  | nil =>
    cases read
    simp [Token.bodies]
  | cons token rest ih =>
    cases token with
    | char c => exact ih read
    | hole body =>
      obtain ⟨reference, others, -, -, rfl⟩ := ofTokens_hole_eq_ok.mp read
      simp [Token.bodies]

end Reference

section References

variable {text : String} {found : List Reference}

/-- The references of a text are in order and do not overlap. -/
theorem references_ordered (read : references text = .ok found) :
    found.Pairwise fun earlier later =>
      earlier.start < later.start ∧ earlier.stop ≤ later.start ∧ earlier.stop < later.stop := by
  have ordered := Token.pairwise_spans 0 (Token.tokens text.toList)
  rw [← Reference.spans_of_ofTokens read] at ordered
  exact List.pairwise_map.mp ordered

/-- Every reference of a text spans a hole. -/
theorem isHole_of_mem_references (read : references text = .ok found) {reference : Reference}
    (member : reference ∈ found) :
    Token.IsHole text.toList reference.start reference.stop := by
  have spanned := Reference.spans_of_ofTokens read
  refine Token.isHole_of_mem_spans text.toList [] ?_
  rw [List.length_nil, ← spanned]
  exact List.mem_map.mpr ⟨reference, member, rfl⟩

/-- Where a hole of a text stops, a reference does that starts with it or one character
earlier. -/
theorem exists_reference_of_isHole (read : references text = .ok found) {start stop : Nat}
    (hole : Token.IsHole text.toList start stop) :
    ∃ reference ∈ found, reference.stop = stop ∧
      (reference.start = start ∨ reference.start + 1 = start) := by
  obtain ⟨first, taken, close⟩ :=
    Token.exists_span_of_isHole text.toList [] hole (Nat.zero_le start)
  rw [List.length_nil, ← Reference.spans_of_ofTokens read] at taken
  obtain ⟨reference, member, same⟩ := List.mem_map.mp taken
  cases same
  exact ⟨reference, member, rfl, close⟩

/-- References of a text that are written alike differ in their positions only. -/
theorem exists_eq_of_raw_eq (read : references text = .ok found) {reference other : Reference}
    (member : reference ∈ found) (also : other ∈ found) (same : reference.raw = other.raw) :
    ∃ start stop, other = { reference with start := start, stop := stop } := by
  obtain ⟨body, -, there⟩ := Reference.exists_ofHole_of_mem read member
  obtain ⟨otherBody, -, here⟩ := Reference.exists_ofHole_of_mem read also
  rw [(Reference.span_of_ofHole there).1, (Reference.span_of_ofHole here).1,
    String.ofList_inj] at same
  obtain rfl : body = otherBody := by simpa [Token.holeSource] using same
  exact ⟨_, _, Except.ok.inj (here.symm.trans (Reference.ofHole_elsewhere there other.start))⟩

/-- No two references of a text end at the same place. -/
theorem nodup_stops (read : references text = .ok found) :
    (found.map (·.stop)).Nodup :=
  List.pairwise_map.mpr ((references_ordered read).imp fun ordered => Nat.ne_of_lt ordered.2.2)

/-- **References are the holes of a text.** They are ordered and apart, each is written as the
hole that it spans, and for each position where a hole stops there is exactly one reference, which
starts where the first of the holes that stop there does. A text has references if any are
found. -/
theorem references_spans (read : references text = .ok found) :
    (found.Pairwise fun earlier later =>
      earlier.start < later.start ∧ earlier.stop ≤ later.start) ∧
    (∀ reference ∈ found,
      reference.raw.toList = text.toList.extract reference.start reference.stop ∧
        Token.IsHole text.toList reference.start reference.stop) ∧
    (∀ start stop, Token.IsHole text.toList start stop →
      (found.map (·.stop)).count stop = 1 ∧
      ∀ reference ∈ found, reference.stop = stop →
        (∀ other, Token.IsHole text.toList other stop → reference.start ≤ other) ∧
          (reference.start = start ∨ reference.start + 1 = start)) ∧
    (hasReferences text = true ↔ found ≠ []) := by
  refine ⟨(references_ordered read).imp fun ordered => ⟨ordered.1, ordered.2.1⟩, ?_, ?_, ?_⟩
  · intro reference member
    have written := Reference.raw_of_mem_ofTokens [] read member
    rw [Token.source_tokens, List.nil_append] at written
    exact ⟨written, isHole_of_mem_references read member⟩
  · intro start stop hole
    have only {reference other : Reference} (member : reference ∈ found) (also : other ∈ found)
        (same : reference.stop = other.stop) : reference = other :=
      List.inj_on_of_nodup_map (nodup_stops read) member also same
    obtain ⟨taken, member, rfl, close⟩ := exists_reference_of_isHole read hole
    refine ⟨List.count_eq_one_of_mem (nodup_stops read) (List.mem_map_of_mem member), ?_⟩
    intro reference also same
    obtain rfl := only also member same
    refine ⟨fun other otherHole => ?_, close⟩
    obtain ⟨first, firstMember, stops, near⟩ := exists_reference_of_isHole read otherHole
    obtain rfl := only firstMember also stops
    omega
  · rw [hasReferences, Bool.not_eq_true', ne_eq, Reference.ofTokens_eq_nil_iff read,
      ← Bool.not_eq_true, List.isEmpty_iff]

/-- Of two holes that stop together the wider one is taken, and the brace behind them is left. -/
theorem references_spans_nested :
    ∃ found, references ("\x7b" ++ braced "n" ++ "\x7d " ++ braced "m | upper") = .ok found ∧
      found.map (fun reference => (reference.start, reference.stop)) = [(0, 6), (8, 21)] ∧
      (found.map (·.stop)).count 6 = 1 ∧
      ∀ reference ∈ found, reference.stop = 6 → reference.start = 1 ∨ reference.start + 1 = 1 := by
  refine ⟨_, rfl, rfl, ?_⟩
  have read : references ("\x7b" ++ braced "n" ++ "\x7d " ++ braced "m | upper") = .ok _ := rfl
  have inner := (references_spans read).2.2.1 1 6 (by decide)
  exact ⟨inner.1, fun reference member stops => (inner.2 reference member stops).2⟩

end References

end Stencil
