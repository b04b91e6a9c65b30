import Stencil.Proofs.Yaml.Quote
import Stencil.Proofs.Yaml.Reaches

/-!
# Tokens between brackets

One step of a reading for each kind of token between brackets: the brackets, the comma, a word and a
text in quotes. A text in quotes that a colon follows soon enough on its line is a name
(`Reading.reaches_name`).
-/

namespace Stencil.Yaml.Token.Reading

open Outcome

variable {reading : Reading} {level : Nat} {tokens : List Token} {c : Char} {rest : List Char}

/-- A reading in brackets where a name may begin. -/
def IsAtName (level : Nat) (tokens : List Token) (text : List Char) (reading : Reading) : Prop :=
  reading.IsAt level tokens text ∧ reading.keyAllowed = true

/-- Among open brackets a reading is inside a collection. -/
theorem Faces.inFlow (facing : Faces (level + 1) tokens (c :: rest) reading) :
    reading.inFlow = true := by
  change (reading.level != 0) = true
  rw [facing.open_eq]
  rfl

/-- A mark that begins a token whatever follows it. -/
theorem beginsToken_of_mem (member : c ∈ "[]\x7b\x7d,:\"ntf0123456789".toList) :
    BeginsToken c rest := by
  have marks : ∀ c ∈ "[]\x7b\x7d,:\"ntf0123456789".toList,
      isGap (some c) = false ∧ c ≠ '#' ∧ c ≠ '%' ∧ c ≠ '.' ∧ c ≠ '-' :=
    Text.forall_mem_of_all (by decide)
  obtain ⟨solid, noComment, noDirective, noDots, noDash⟩ := marks c member
  exact ⟨solid, noComment, noDirective, noDots, fun dash => absurd dash noDash⟩

/-- The next token may become a key if one may begin here. -/
theorem offerKey_eq (free : reading.IsFree) :
    ∃ candidates, reading.offerKey = .ok { reading with candidates } ∧
      (∀ waiting ∈ candidates, waiting.required = false) ∧
      (reading.keyAllowed = true → candidates.head? = some ⟨reading.level, reading.tokens.length,
        false, reading.cursor.index, reading.cursor.line, reading.cursor.column⟩) := by
  rw [offerKey]
  by_cases allowed : reading.keyAllowed = true
  · rw [if_pos allowed, dropCandidate_eq free, ok_bind, free.noBlock, List.head?_nil]
    refine ⟨_, rfl, ?_, fun _ => ?_⟩
    · intro waiting member
      rcases List.mem_cons.mp member with rfl | other
      · simp
      · exact free.optional waiting (List.mem_filter.mp other).1
    · simp
  · rw [if_neg allowed]
    exact ⟨reading.candidates, rfl, free.optional, fun impossible => absurd impossible allowed⟩

/-- A reading that went on behind a mark is in front of the rest of the text. -/
theorem Faces.isAt_forward {next : Reading} {mark : Token} {other : Nat}
    (facing : Faces level tokens (c :: rest) reading) (noBlock : next.indents = reading.indents)
    (running : next.ended = reading.ended)
    (optional : ∀ waiting ∈ next.candidates, waiting.required = false)
    (open_eq : next.level = other) (taken : next.tokens = mark :: reading.tokens)
    (cursor : next.cursor = reading.cursor.forward) : IsAt other (mark :: tokens) rest next := by
  refine ⟨⟨noBlock.trans facing.free.noBlock, running.trans facing.free.running, optional⟩, open_eq,
    ?_, ?_⟩
  · rw [taken, facing.taken]
  · rw [cursor, Cursor.ahead, Cursor.rest_forward, facing.left, List.tail_cons]

/-- An opening bracket. -/
theorem reaches_open {mark : Token}
    (pair : c = '[' ∧ mark = .flowSequenceStart ∨ c = '{' ∧ mark = .flowMappingStart) :
    Reaches 1 (IsAt level tokens (c :: rest)) (IsAtName (level + 1) (mark :: tokens) rest) := by
  have begins : BeginsToken c rest := by
    apply beginsToken_of_mem
    rcases pair with ⟨rfl, -⟩ | ⟨rfl, -⟩ <;> decide
  apply reaches_of_takeMark begins fun reading place => ⟨level, tokens, place⟩
  intro reading place
  have facing := place.faces begins
  obtain ⟨candidates, offered, optional, -⟩ := offerKey_eq facing.free
  have taken : reading.arrived.takeMark c rest.head? = reading.arrived.openFlow mark := by
    rcases pair with ⟨rfl, rfl⟩ | ⟨rfl, rfl⟩ <;> rfl
  rw [taken, openFlow, offered]
  refine ⟨_, rfl, facing.isAt_forward rfl rfl optional ?_ rfl rfl, rfl⟩
  exact congrArg (· + 1) facing.open_eq

/-- A closing bracket. -/
theorem reaches_close {mark : Token}
    (pair : c = ']' ∧ mark = .flowSequenceEnd ∨ c = '}' ∧ mark = .flowMappingEnd) :
    Reaches 1 (IsAt (level + 1) tokens (c :: rest)) (IsAt level (mark :: tokens) rest) := by
  have begins : BeginsToken c rest := by
    apply beginsToken_of_mem
    rcases pair with ⟨rfl, -⟩ | ⟨rfl, -⟩ <;> decide
  apply reaches_of_takeMark begins fun reading place => ⟨level + 1, tokens, place⟩
  intro reading place
  have facing := place.faces begins
  have taken : reading.arrived.takeMark c rest.head? = reading.arrived.closeFlow mark := by
    rcases pair with ⟨rfl, rfl⟩ | ⟨rfl, rfl⟩ <;> rfl
  rw [taken, closeFlow, dropCandidate_eq facing.free]
  refine ⟨_, rfl, facing.isAt_forward rfl rfl ?_ ?_ rfl rfl⟩
  · intro waiting member
    exact facing.free.optional waiting (List.mem_filter.mp member).1
  · exact congrArg (· - 1) facing.open_eq

/-- A comma becomes a token, and a name may follow. -/
theorem reaches_comma :
    Reaches 1 (IsAt level tokens (',' :: rest)) (IsAtName level (.flowEntry :: tokens) rest) := by
  have begins : BeginsToken ',' rest := beginsToken_of_mem (by decide)
  apply reaches_of_takeMark begins fun reading place => ⟨level, tokens, place⟩
  intro reading place
  have facing := place.faces begins
  have taken : reading.arrived.takeMark ',' rest.head? = reading.arrived.flowEntry := rfl
  rw [taken, flowEntry, dropCandidate_eq facing.free]
  refine ⟨_, rfl, facing.isAt_forward rfl rfl ?_ facing.open_eq rfl rfl, rfl⟩
  intro waiting member
  exact facing.free.optional waiting (List.mem_filter.mp member).1

/-- A word begins with a letter of a fixed word, a digit, or a hyphen in front of a digit. -/
def BeginsWord (word : List Char) : Prop :=
  ∃ c rest, word = c :: rest ∧
    (c ∈ "ntf0123456789".toList ∨ c = '-' ∧ ∃ d ∈ rest.head?, d ∈ "0123456789".toList)

/-- A letter or a digit begins a plain scalar. -/
theorem takeMark_letter (member : c ∈ "ntf0123456789".toList) (next : Option Char) :
    reading.takeMark c next = reading.plainScalar := by
  change c ∈ ['n', 't', 'f', '0', '1', '2', '3', '4', '5', '6', '7', '8', '9'] at member
  simp only [List.mem_cons, List.not_mem_nil, or_false] at member
  rcases member with rfl | rfl | rfl | rfl | rfl | rfl | rfl | rfl | rfl | rfl | rfl | rfl | rfl <;>
    rfl

/-- A hyphen in front of a digit begins a plain scalar. -/
theorem takeMark_hyphen {d : Char} (digit : d ∈ "0123456789".toList) :
    reading.takeMark '-' (some d) = reading.plainScalar := by
  have solid : ∀ d ∈ "0123456789".toList, isGap (some d) = false :=
    Text.forall_mem_of_all (by decide)
  simp [takeMark, beginsPlain, solid d digit]

/-- A word in front of the end of its item. -/
theorem reaches_word {word : List Char} (begins : BeginsWord word)
    (parts : ∀ c ∈ word, Plain.isWordPart c = true) (ends : EndsItem (rest.dropWhile isPassed)) :
    Reaches 1 (IsAt (level + 1) tokens (word ++ rest))
      (IsAt (level + 1) (.scalar (String.ofList word) true :: tokens) rest) := by
  obtain ⟨c, others, rfl, first⟩ := begins
  have token : BeginsToken c (others ++ rest) := by
    rcases first with letter | ⟨rfl, d, next, digit⟩
    · apply beginsToken_of_mem
      have listed : ∀ c ∈ "ntf0123456789".toList, c ∈ "[]\x7b\x7d,:\"ntf0123456789".toList :=
        Text.forall_mem_of_all (by decide)
      exact listed c letter
    · have apart : ∀ d ∈ "0123456789".toList, d ≠ '-' := Text.forall_mem_of_all (by decide)
      refine ⟨rfl, by decide, by decide, by decide, fun _ same => ?_⟩
      rw [List.head?_append, Option.mem_def.mp next, Option.some_or, Option.some.injEq] at same
      exact apart d digit same
  apply reaches_of_takeMark token fun reading place => ⟨level + 1, tokens, place⟩
  intro reading place
  have facing := place.faces token
  have taken : reading.arrived.takeMark c (others ++ rest).head? = reading.arrived.plainScalar := by
    rcases first with letter | ⟨rfl, d, next, digit⟩
    · exact takeMark_letter letter _
    · rw [List.head?_append, Option.mem_def.mp next, Option.some_or]
      exact takeMark_hyphen digit
  obtain ⟨candidates, offered, optional, -⟩ := offerKey_eq facing.free
  have inside : reading.arrived.inFlow = true := facing.inFlow
  obtain ⟨text, stop⟩ := @Plain.scalar_word reading.arrived.cursor (c :: others) rest
    reading.arrived.leastColumn facing.left (List.cons_ne_nil c others) parts ends
  rw [taken, plainScalar, offered, ok_bind]
  refine ⟨_, rfl, ⟨facing.free.noBlock, facing.free.running, optional⟩, facing.open_eq, ?_, ?_⟩
  · change Token.scalar (String.ofList (Plain.scalar reading.arrived.inFlow
      reading.arrived.leastColumn reading.arrived.cursor).text) true :: reading.arrived.tokens = _
    rw [inside, text, facing.taken]
  · change (Plain.scalar reading.arrived.inFlow reading.arrived.leastColumn
      reading.arrived.cursor).stop.ahead = _
    rw [inside, Cursor.ahead, stop, ends.isClear.dropWhile]

/-- The token of a portable text in quotes is the scalar that it stands for. -/
theorem quotedToken_quotedChars {cursor : Cursor} {parts : List Json.Piece}
    (portable : ∀ part ∈ parts, part.isPortable = true)
    (left : cursor.rest = Json.quotedChars parts ++ rest) :
    quotedToken '"' cursor =
      .ok (.scalar (Json.textOf parts) false, cursor.skip (Json.quotedChars parts).length) := by
  rw [quotedToken, Quoted.scalar_quotedChars portable left, ok_bind]
  dsimp only
  rw [Text.ofSigns_map_char]
  rfl

/-- The reading behind a text in quotes. -/
theorem keyPart_quoted {parts : List Json.Piece} {candidates : List Candidate}
    (portable : ∀ part ∈ parts, part.isPortable = true)
    (left : reading.cursor.rest = Json.quotedChars parts ++ rest)
    (offered : reading.offerKey = .ok { reading with candidates }) :
    reading.keyPart (quotedToken '"') = .ok { reading with
      candidates
      tokens := .scalar (Json.textOf parts) false :: reading.tokens
      cursor := reading.cursor.skip (Json.quotedChars parts).length
      keyAllowed := false } := by
  rw [keyPart, offered, ok_bind, quotedToken_quotedChars portable left]
  rfl

/-- A text in quotes. -/
theorem reaches_text {parts : List Json.Piece} (portable : ∀ part ∈ parts, part.isPortable = true) :
    Reaches 1 (IsAt level tokens (Json.quotedChars parts ++ rest))
      (IsAt level (.scalar (Json.textOf parts) false :: tokens) rest) := by
  obtain ⟨behind, quoted⟩ : ∃ behind, Json.quotedChars parts ++ rest = '"' :: behind := ⟨_, rfl⟩
  have begins : BeginsToken '"' behind := beginsToken_of_mem (by decide)
  rw [quoted]
  apply reaches_of_takeMark begins fun reading place => ⟨level, tokens, place⟩
  intro reading place
  have facing := place.faces begins
  have left := facing.left.trans quoted.symm
  obtain ⟨candidates, offered, optional, -⟩ := offerKey_eq facing.free
  have taken : reading.arrived.takeMark '"' behind.head? =
    reading.arrived.keyPart (quotedToken '"') := rfl
  rw [taken, keyPart_quoted portable left offered]
  refine ⟨_, rfl, ⟨facing.free.noBlock, facing.free.running, optional⟩, facing.open_eq, ?_, ?_⟩
  · exact congrArg (_ :: ·) facing.taken
  · exact congrArg (List.dropWhile isPassed) (Cursor.rest_skip_append left)

/-- A reading behind a text in quotes that is a name if a colon follows within a number of
characters on its line. -/
structure IsBehindName (level : Nat) (tokens : List Token) (name : String) (reach : Nat)
    (text : List Char) (reading : Reading) : Prop where
  place : IsAt level (.scalar name false :: tokens) text reading
  left : reading.cursor.rest = text
  waiting : ∃ waiting, reading.candidates.head? = some waiting ∧ waiting.level = level ∧
    waiting.place = tokens.length ∧ waiting.line = reading.cursor.line ∧
    reading.cursor.index + reach ≤ waiting.index + keyReach

/-- A text in quotes where a name may begin. -/
theorem reaches_behindName {name : List Json.Piece} {reach : Nat}
    (portable : ∀ part ∈ name, part.isPortable = true)
    (near : (Json.quotedChars name).length + reach ≤ keyReach) :
    Reaches 1 (IsAtName (level + 1) tokens (Json.quotedChars name ++ rest))
      (IsBehindName (level + 1) tokens (Json.textOf name) reach rest) := by
  obtain ⟨behind, quoted⟩ : ∃ behind, Json.quotedChars name ++ rest = '"' :: behind := ⟨_, rfl⟩
  have begins : BeginsToken '"' behind := beginsToken_of_mem (by decide)
  rw [quoted]
  apply reaches_of_takeMark begins fun reading place => ⟨level + 1, tokens, place.1⟩
  rintro reading ⟨place, allowed⟩
  have inside : reading.inFlow = true := by
    change (reading.level != 0) = true
    rw [place.open_eq]
    rfl
  have facing := place.faces begins
  have left := facing.left.trans quoted.symm
  obtain ⟨candidates, offered, optional, waits⟩ := offerKey_eq facing.free
  have taken : reading.arrived.takeMark '"' behind.head? =
    reading.arrived.keyPart (quotedToken '"') := rfl
  have stop := Cursor.rest_skip_append left
  have index := Cursor.index_skip left
  have line := Cursor.line_skip left fun c member => (Quoted.isInline_quotedChars portable member).2
  rw [taken, keyPart_quoted portable left offered]
  refine ⟨_, rfl, ⟨⟨facing.free.noBlock, facing.free.running, optional⟩, facing.open_eq, ?_, ?_⟩,
    stop, _, waits ?_, facing.open_eq, ?_, line.symm, ?_⟩
  · exact congrArg (_ :: ·) facing.taken
  · exact congrArg (List.dropWhile isPassed) stop
  · exact (arrived_keyAllowed inside).trans allowed
  · exact congrArg List.length facing.taken
  · change (reading.arrived.cursor.skip (Json.quotedChars name).length).index + reach ≤
      reading.arrived.cursor.index + keyReach
    omega

/-- The candidate that was offered last stays unless it is stale. -/
theorem fresh_head? {waiting : Candidate} (first : reading.candidates.head? = some waiting)
    (kept : reading.isStale waiting = false) :
    reading.fresh.candidates.head? = some waiting := by
  obtain ⟨others, listed⟩ := List.head?_eq_some_iff.mp first
  simp [fresh, listed, kept]

/-- Spaces in front of a token are passed on its line. -/
theorem cursor_passed {blanks : List Char} (spaces : ∀ c ∈ blanks, c = ' ')
    (begins : BeginsToken c rest) (left : reading.cursor.rest = blanks ++ c :: rest) :
    reading.passed.cursor = reading.cursor.skip blanks.length := by
  have noSpace : (c == ' ') = false := by
    rw [beq_eq_false_iff_ne]
    rintro rfl
    cases begins.solid
  have skipped : reading.cursor.skipSpaces = reading.cursor.skip blanks.length := by
    apply Cursor.skipWhile_append left
    · intro d member
      rw [spaces d member]
      rfl
    · intro d first
      cases first
      exact noSpace
  have ahead : reading.cursor.ahead = c :: rest := by
    rw [← Cursor.ahead_skipSpaces, skipped, Cursor.ahead, Cursor.rest_skip_append left,
      begins.isClear.dropWhile]
  have clear : IsClear reading.cursor.ahead := ahead ▸ begins.isClear
  have solid : IsClear reading.cursor.skipSpaces.rest := by
    rw [skipped, Cursor.rest_skip_append left]
    exact begins.isClear
  rw [passed, skipGaps, Cursor.skipComment_skipSpaces clear, Cursor.takeBreak_solid solid]
  exact skipped

section Colon

variable {name : String} {blanks : List Char}

/-- A reading behind a name is in front of its colon. -/
theorem IsBehindName.isAt {reach : Nat} (spaces : ∀ c ∈ blanks, c = ' ')
    (behind : IsBehindName level tokens name reach (blanks ++ ':' :: rest) reading) :
    IsAt level (.scalar name false :: tokens) (':' :: rest) reading := by
  have passed : ∀ c ∈ blanks, isPassed c = true := by
    intro c member
    rw [spaces c member]
    rfl
  rw [← isAt_append passed]
  exact behind.place

/-- A name that is near enough still waits where its colon stands. -/
theorem IsBehindName.waits (spaces : ∀ c ∈ blanks, c = ' ')
    (behind : IsBehindName level tokens name blanks.length (blanks ++ ':' :: rest) reading) :
    ∃ waiting, reading.arrived.candidates.head? = some waiting ∧ waiting.level = level ∧
      waiting.place = tokens.length := by
  obtain ⟨waiting, first, level_eq, place_eq, line, near⟩ := behind.waiting
  have stays : reading.isStale waiting = false := by
    rw [isStale, line]
    simp
    omega
  have kept : reading.fresh.passed.candidates = reading.fresh.candidates := by
    obtain ⟨_, _, same⟩ := exists_skipGaps (reading.fresh.cursor.rest.length + 1) reading.fresh
    rw [passed, same]
  have cursor : reading.fresh.passed.cursor = reading.cursor.skip blanks.length :=
    @cursor_passed reading.fresh _ _ _ spaces (beginsToken_of_mem (by decide)) behind.left
  have sameLine := Cursor.line_skip behind.left fun c member => by rw [spaces c member]; rfl
  have staysBehind : reading.fresh.passed.isStale waiting = false := by
    rw [isStale, cursor, sameLine, Cursor.index_skip behind.left, line]
    simp
    omega
  exact ⟨waiting, fresh_head? (kept.symm ▸ fresh_head? first stays) staysBehind, level_eq, place_eq⟩

/-- Inside brackets a colon takes a value. -/
theorem takeMark_colon (inside : reading.inFlow = true) (next : Option Char) :
    reading.takeMark ':' next = reading.valueMark := by
  simp [takeMark, inside]

/-- The colon behind a name. -/
theorem reaches_colon (spaces : ∀ c ∈ blanks, c = ' ') :
    Reaches 1 (IsBehindName (level + 1) tokens name blanks.length (blanks ++ ':' :: rest))
      (IsAt (level + 1) (.value :: .scalar name false :: .key :: tokens) rest) := by
  have begins : BeginsToken ':' rest := beginsToken_of_mem (by decide)
  apply reaches_of_takeMark begins fun reading behind => ⟨_, _, behind.isAt spaces⟩
  intro reading behind
  have facing := (behind.isAt spaces).faces begins
  have inside : reading.arrived.inFlow = true := facing.inFlow
  obtain ⟨waiting, first, level_eq, place_eq⟩ := behind.waits spaces
  have taken : reading.arrived.takeMark ':' rest.head? =
      .ok (reading.arrived.valueOfCandidate waiting) := by
    have found : reading.arrived.candidates.find? (·.level == reading.arrived.level) =
        some waiting := by
      obtain ⟨others, listed⟩ := List.head?_eq_some_iff.mp first
      rw [listed, List.find?_cons_of_pos]
      rw [level_eq, facing.open_eq, beq_self_eq_true]
    rw [takeMark_colon inside, valueMark, found]
    rfl
  have closed : reading.arrived.opensBlock waiting.column = false := by
    rw [opensBlock, inside]
    rfl
  have inserted : (reading.arrived.insert waiting.place [.key]).tokens =
      .scalar name false :: .key :: tokens := by
    rw [insert, facing.taken, place_eq]
    simp
  rw [taken]
  refine ⟨_, rfl, ⟨⟨?_, facing.free.running, ?_⟩, facing.open_eq, ?_, ?_⟩⟩
  · change (if _ then _ else reading.arrived.indents) = []
    rw [closed]
    exact facing.free.noBlock
  · intro waiting member
    exact facing.free.optional waiting (List.mem_filter.mp member).1
  · rw [valueOfCandidate, closed]
    exact congrArg (Token.value :: ·) inserted
  · change reading.arrived.cursor.forward.ahead = _
    rw [Cursor.ahead, Cursor.rest_forward, facing.left, List.tail_cons]

end Colon

/-- A name with its colon. -/
theorem reaches_name {name : List Json.Piece} {blanks : List Char}
    (portable : ∀ part ∈ name, part.isPortable = true) (spaces : ∀ c ∈ blanks, c = ' ')
    (near : (Json.quotedChars name).length + blanks.length ≤ keyReach) :
    Reaches 2 (IsAtName (level + 1) tokens (Json.quotedChars name ++ (blanks ++ ':' :: rest)))
      (IsAt (level + 1) (.value :: .scalar (Json.textOf name) false :: .key :: tokens) rest) :=
  (reaches_behindName portable near).trans (reaches_colon spaces)

end Stencil.Yaml.Token.Reading
