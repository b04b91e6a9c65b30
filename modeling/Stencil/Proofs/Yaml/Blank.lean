import Stencil.Proofs.Yaml.Cursor
import Stencil.Yaml.Token

/-!
# Blanks between tokens

Spaces and line breaks between tokens are passed, whether a reading looks for the next token or a
plain scalar looks for its end. What is left behind them is the text ahead of a cursor
(`Cursor.ahead`); it is clear where it begins with a character of a token.
-/

namespace Stencil.Yaml

/-- Whether a character is passed between tokens. -/
def isPassed (c : Char) : Bool :=
  c == ' ' || c == '\n' || c == '\r'

/-- A text begins with no blank, no line break and no comment. -/
def IsClear (text : List Char) : Prop :=
  ∀ c ∈ text.head?, isGap (some c) = false ∧ c ≠ '#'

/-- Spaces and line breaks are passed over. -/
theorem isPassed_iff {c : Char} : isPassed c = true ↔ c = ' ' ∨ c = '\n' ∨ c = '\r' := by
  simp [isPassed, or_assoc]

/-- What is no gap is not passed over. -/
theorem not_isPassed_of_isGap {c : Char} (solid : isGap (some c) = false) : isPassed c = false := by
  by_contra passed
  rw [Bool.not_eq_false, isPassed_iff] at passed
  rcases passed with rfl | rfl | rfl <;> cases solid

/-- A text without the blanks in front of it is left alone when they are dropped again. -/
theorem IsClear.dropWhile {text : List Char} (clear : IsClear text) :
    text.dropWhile isPassed = text := by
  cases text with
  | nil => rfl
  | cons c rest => simp [not_isPassed_of_isGap (clear c rfl).1]

/-- The first character of a text is passed, or the text without its blanks begins with it. -/
theorem isPassed_or_mem_head? {text : List Char} {c : Char} (first : c ∈ text.head?) :
    isPassed c = true ∨ c ∈ (text.dropWhile isPassed).head? := by
  cases text with
  | nil => cases first
  | cons d rest =>
    cases first
    by_cases passed : isPassed c = true
    · exact .inl passed
    · right
      simp [passed]

namespace Cursor

variable {cursor : Cursor}

/-- The text behind the next spaces and line breaks. -/
def ahead (cursor : Cursor) : List Char :=
  cursor.rest.dropWhile isPassed

/-- Spaces in front of the text ahead do not matter. -/
theorem ahead_skipSpaces : cursor.skipSpaces.ahead = cursor.ahead := by
  rw [ahead, ahead, skipSpaces, rest_skipWhile]
  induction cursor.rest with
  | nil => rfl
  | cons c rest ih =>
    by_cases space : c = ' '
    · simpa [space, isPassed] using ih
    · simp [space]

/-- Skipping spaces leaves no more than there was. -/
theorem rest_skipSpaces_length : cursor.skipSpaces.rest.length ≤ cursor.rest.length := by
  rw [skipSpaces, rest_skipWhile]
  exact (List.dropWhile_suffix _).length_le

/-- A line break is passed with fewer characters left. -/
theorem takeBreak_passed {c : Char} {rest : List Char} (left : cursor.rest = c :: rest)
    (ends : c = '\n' ∨ c = '\r') :
    ∃ next, cursor.takeBreak = (['\n'], next) ∧ next.ahead = cursor.ahead ∧
      next.rest.length < cursor.rest.length := by
  have alone (taken : cursor.takeBreak = (['\n'], cursor.forward)) :
      ∃ next, cursor.takeBreak = (['\n'], next) ∧ next.ahead = cursor.ahead ∧
        next.rest.length < cursor.rest.length := by
    have passed : isPassed c = true := isPassed_iff.mpr (.inr ends)
    exact ⟨cursor.forward, taken, by simp [ahead, left, passed], by simp [left]⟩
  rcases ends with rfl | rfl
  · apply alone
    rw [takeBreak, left]
    rfl
  · by_cases pair : ∃ others, rest = '\n' :: others
    · obtain ⟨others, rfl⟩ := pair
      refine ⟨cursor.skip 2, ?_, by simp [ahead, left, isPassed], ?_⟩
      · rw [takeBreak, left]
        rfl
      · rw [rest_skip, left]
        change others.length < others.length + 1 + 1
        omega
    · apply alone
      rw [takeBreak, left]
      split
      · rename_i same
        cases same
      · rename_i same
        exact absurd ⟨_, (List.cons.inj same).2⟩ pair
      · rename_i same
        cases same
        rfl

/-- No line ends in front of a character that is no blank. -/
theorem takeBreak_solid (clear : IsClear cursor.rest) : cursor.takeBreak = ([], cursor) := by
  cases left : cursor.rest with
  | nil => rw [takeBreak, left]
  | cons c rest =>
    rw [left] at clear
    have solid : isBreak c = false := by
      have gap : (isSpace c || isBreak c) = false := (clear c rfl).1
      exact (Bool.or_eq_false_iff.mp gap).2
    have apart (other : Char) (ends : isBreak other = true) : c ≠ other := by
      rintro rfl
      rw [solid] at ends
      cases ends
    rw [takeBreak, left]
    simp [solid, apart '\r' rfl, apart '\u2028' rfl, apart '\u2029' rfl]

/-- Behind the next spaces there is a line break with fewer characters behind it, or else the text
ahead. -/
theorem takeBreak_skipSpaces (clear : IsClear cursor.ahead) :
    cursor.skipSpaces.rest = cursor.ahead ∧
        cursor.skipSpaces.takeBreak = ([], cursor.skipSpaces) ∨
      ∃ next, cursor.skipSpaces.takeBreak = (['\n'], next) ∧ next.ahead = cursor.ahead ∧
        next.rest.length < cursor.rest.length := by
  by_cases same : cursor.skipSpaces.rest = cursor.ahead
  · rw [← same] at clear
    exact .inl ⟨same, takeBreak_solid clear⟩
  · right
    have noSpace : cursor.skipSpaces.rest.head? ≠ some ' ' := by
      intro first
      have stops := List.head?_dropWhile_not (· == ' ') cursor.rest
      rw [skipSpaces, rest_skipWhile] at first
      rw [first] at stops
      cases stops
    rw [← ahead_skipSpaces, ahead] at same
    cases left : cursor.skipSpaces.rest with
    | nil =>
      rw [left] at same
      exact absurd rfl same
    | cons c rest =>
      rw [left] at same noSpace
      have passed : isPassed c = true := by
        by_contra solid
        simp [solid] at same
      have ends : c = '\n' ∨ c = '\r' :=
        (isPassed_iff.mp passed).resolve_left fun space => noSpace (congrArg some space)
      obtain ⟨next, taken, behind, fewer⟩ := takeBreak_passed left ends
      exact ⟨next, taken, behind.trans ahead_skipSpaces,
        Nat.lt_of_lt_of_le fewer rest_skipSpaces_length⟩

/-- No comment follows the next spaces. -/
theorem skipComment_skipSpaces (clear : IsClear cursor.ahead) :
    cursor.skipSpaces.skipComment = cursor.skipSpaces := by
  rw [skipComment, if_neg]
  intro comment
  rw [beq_iff_eq] at comment
  rw [← ahead_skipSpaces, ahead] at clear
  rw [next] at comment
  cases left : cursor.skipSpaces.rest with
  | nil =>
    rw [left] at comment
    cases comment
  | cons c rest =>
    rw [left] at comment clear
    cases comment
    exact (clear '#' rfl).2 rfl

/-- No mark of a document begins with another character than those of such marks. -/
theorem atDocumentMark_of_head? (apart : ∀ c ∈ cursor.rest.head?, c ≠ '-' ∧ c ≠ '.') :
    cursor.atDocumentMark = false := by
  have noMark (mark : String) (c : Char) (rest : List Char) (first : mark.toList = c :: rest)
      (dash : c = '-' ∨ c = '.') : cursor.startsMark mark = false := by
    rw [startsMark, startsWith, first]
    cases left : cursor.rest with
    | nil => rfl
    | cons d others =>
      have other := apart d (by rw [left]; rfl)
      have differ : c ≠ d := by
        rintro rfl
        rcases dash with same | same
        · exact other.1 same
        · exact other.2 same
      simp [differ]
  rw [atDocumentMark, noMark "---" '-' ['-', '-'] rfl (.inl rfl),
    noMark "..." '.' ['.', '.'] rfl (.inr rfl)]
  rfl

end Cursor

namespace Token.Reading

variable {reading : Reading}

/-- Passing blanks changes no more of a reading than its place and whether a key may begin. -/
theorem exists_skipGaps (steps : Nat) (reading : Reading) :
    ∃ cursor keyAllowed, skipGaps steps reading = { reading with cursor, keyAllowed } := by
  induction steps generalizing reading with
  | zero => exact ⟨_, _, rfl⟩
  | succ steps ih =>
    rw [skipGaps]
    split
    · exact ⟨_, _, rfl⟩
    · obtain ⟨cursor, keyAllowed, passed⟩ := ih _
      exact ⟨cursor, keyAllowed, passed⟩

/-- Inside brackets, gaps do not change whether a key is allowed. -/
theorem keyAllowed_skipGaps (steps : Nat) (inside : reading.inFlow = true) :
    (skipGaps steps reading).keyAllowed = reading.keyAllowed := by
  induction steps generalizing reading with
  | zero => rfl
  | succ steps ih =>
    rw [skipGaps]
    split
    · rfl
    · rw [ih]
      · simp [inside]
      · exact inside

/-- Passing blanks leads to the text ahead. -/
theorem rest_skipGaps {steps : Nat} (clear : IsClear reading.cursor.ahead)
    (enough : reading.cursor.rest.length < steps) :
    (skipGaps steps reading).cursor.rest = reading.cursor.ahead := by
  induction steps generalizing reading with
  | zero => exact absurd enough (Nat.not_lt_zero _)
  | succ steps ih =>
    rw [skipGaps, Cursor.skipComment_skipSpaces clear]
    rcases Cursor.takeBreak_skipSpaces clear with ⟨left, taken⟩ | ⟨next, taken, behind, fewer⟩
    · rw [taken]
      exact left
    · rw [taken]
      refine (ih ?_ (Nat.lt_of_lt_of_le fewer (Nat.le_of_lt_succ enough))).trans behind
      rwa [behind]

end Token.Reading

/-- A text begins with a mark that ends an item between brackets. -/
def EndsItem (text : List Char) : Prop :=
  ∀ c ∈ text.head?, c = ',' ∨ c = ']' ∨ c = '}'

/-- A text that ends an item begins with no blank and no comment. -/
theorem EndsItem.isClear {text : List Char} (ends : EndsItem text) : IsClear text := by
  intro c first
  rcases ends c first with rfl | rfl | rfl <;> decide

/-- A cursor in front of the end of an item is not in front of a mark of a document. -/
theorem EndsItem.atDocumentMark {cursor : Cursor} (ends : EndsItem cursor.ahead) :
    cursor.atDocumentMark = false := by
  apply Cursor.atDocumentMark_of_head?
  intro c first
  rcases isPassed_or_mem_head? first with passed | next
  · rcases isPassed_iff.mp passed with rfl | rfl | rfl <;> decide
  · rcases ends c next with rfl | rfl | rfl <;> decide

namespace Plain

variable {cursor : Cursor}

/-- In front of the end of an item, line breaks are followed by nothing. -/
theorem furtherBreaks_eq {steps : Nat} (ends : EndsItem cursor.ahead)
    (enough : cursor.rest.length < steps) :
    ∃ following stop, furtherBreaks steps cursor = (some following, stop) ∧
      stop.rest = cursor.ahead := by
  induction steps generalizing cursor with
  | zero => exact absurd enough (Nat.not_lt_zero _)
  | succ steps ih =>
    rw [furtherBreaks]
    rcases Cursor.takeBreak_skipSpaces ends.isClear with
      ⟨left, taken⟩ | ⟨next, taken, behind, fewer⟩
    · rw [taken]
      exact ⟨[], cursor.skipSpaces, rfl, left⟩
    · have later : EndsItem next.ahead := behind ▸ ends
      obtain ⟨following, stop, found, left⟩ :=
        ih later (Nat.lt_of_lt_of_le fewer (Nat.le_of_lt_succ enough))
      rw [taken]
      simp only [later.atDocumentMark, found]
      exact ⟨_, stop, rfl, left.trans behind⟩

/-- The blanks behind the last run of a plain scalar lead to the end of its item. -/
theorem rest_stop_gap (ends : EndsItem cursor.ahead) : (gap cursor).stop.rest = cursor.ahead := by
  rw [gap]
  rcases Cursor.takeBreak_skipSpaces ends.isClear with ⟨left, taken⟩ | ⟨next, taken, behind, -⟩
  · rw [taken]
    exact left
  · have later : EndsItem next.ahead := behind ▸ ends
    obtain ⟨following, stop, found, left⟩ := furtherBreaks_eq later (Nat.lt_succ_self _)
    rw [taken]
    simp only [later.atDocumentMark, found]
    exact left.trans behind

/-- Whether a character belongs to a word between brackets wherever it stands. -/
def isWordPart (c : Char) : Bool :=
  !isGap (some c) && !isFlowMark c && c != ':' && c != '?' && c != '#'

/-- A word goes on up to a gap or a mark of a collection. -/
theorem run_word {word rest : List Char} (parts : ∀ c ∈ word, isWordPart c = true)
    (ends : ∀ c ∈ rest.head?, isGap (some c) = true ∨ isFlowMark c = true) :
    run true (word ++ rest) = word := by
  induction word with
  | nil =>
    cases rest with
    | nil => rfl
    | cons c others =>
      rw [List.nil_append, run]
      rcases ends c rfl with gap | mark
      · simp [gap]
      · simp [mark]
  | cons c word ih =>
    rw [List.forall_mem_cons] at parts
    have part := parts.1
    simp only [isWordPart, Bool.and_eq_true, Bool.not_eq_true', bne_iff_ne] at part
    obtain ⟨⟨⟨⟨solid, noMark⟩, noColon⟩, noQuestion⟩, -⟩ := part
    rw [List.cons_append, run, ih parts.2]
    simp [solid, noMark, noColon, noQuestion]

/-- No run begins at the end of an item. -/
theorem scalarFrom_of_endsItem {steps indent : Nat} {passed : Gap}
    (ends : EndsItem passed.stop.rest) :
    scalarFrom true indent (steps + 1) passed = ⟨[], passed.stop, passed.endedLine⟩ := by
  have nothing : run true passed.stop.rest = [] := by
    apply @run_word []
    · simp
    · intro c first
      right
      rcases ends c first with rfl | rfl | rfl <;> rfl
  rw [scalarFrom, nothing]
  simp

/-- A word in front of the end of its item is a plain scalar. -/
theorem scalar_word {word rest : List Char} {indent : Nat} (left : cursor.rest = word ++ rest)
    (filled : word ≠ []) (parts : ∀ c ∈ word, isWordPart c = true)
    (ends : EndsItem (rest.dropWhile isPassed)) :
    (scalar true indent cursor).text = word ∧
      (scalar true indent cursor).stop.rest = rest.dropWhile isPassed := by
  have behind : (cursor.skip word.length).ahead = rest.dropWhile isPassed := by
    rw [Cursor.ahead, Cursor.rest_skip_append left]
  have stops : (gap (cursor.skip word.length)).stop.rest = rest.dropWhile isPassed := by
    rw [← behind] at ends ⊢
    exact rest_stop_gap ends
  have noComment : (cursor.next == some '#') = false := by
    obtain ⟨c, others, rfl⟩ := List.exists_cons_of_ne_nil filled
    have part := parts c List.mem_cons_self
    simp only [isWordPart, Bool.and_eq_true, bne_iff_ne] at part
    rw [Cursor.next, left]
    simpa using part.2
  have here : run true cursor.rest = word := by
    rw [left]
    apply run_word parts
    intro c first
    rcases isPassed_or_mem_head? first with passed | next
    · left
      rcases isPassed_iff.mp passed with rfl | rfl | rfl <;> rfl
    · right
      rcases ends c next with rfl | rfl | rfl <;> rfl
  obtain ⟨more, length⟩ : ∃ more, cursor.rest.length = more + 1 := by
    refine ⟨cursor.rest.length - 1, ?_⟩
    have some : 0 < word.length := List.length_pos_iff.mpr filled
    rw [left, List.length_append]
    omega
  have given : word.isEmpty = false := List.isEmpty_eq_false_iff.mpr filled
  rw [← stops] at ends
  rw [scalar, scalarFrom]
  simp only [noComment, here, given, length, scalarFrom_of_endsItem ends, Bool.false_eq_true,
    if_false]
  split
  · exact ⟨rfl, stops⟩
  · exact ⟨by simp, stops⟩

end Plain

end Stencil.Yaml
