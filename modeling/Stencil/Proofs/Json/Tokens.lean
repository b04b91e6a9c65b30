import Stencil.Proofs.Json.Number
import Stencil.Proofs.Yaml.FlowTokens

/-!
# Tokens of a written document

The tokens of a legible document of the JSON format, read as one of the YAML format, are those of
its parts in order: a word or a text for each scalar, the marks of the brackets and commas, and for
each member of an object its name between the marks of a key and of a value
(`Document.ofText_text`). One lemma on readings belongs to each kind of part; the bound on the
number of steps is the number of characters.
-/

namespace Stencil.Json

open Yaml Yaml.Token Yaml.Token.Reading

/-- The mark in front of all parts but the first. -/
def commaTokens (first : Bool) : List Yaml.Token :=
  if first then [] else [.flowEntry]

mutual

/-- The tokens of a value. -/
def Written.tokens : Written → List Yaml.Token
  | .null => [.scalar "null" true]
  | .bool b => [.scalar (if b then "true" else "false") true]
  | .number number => [.scalar (String.ofList number.chars) true]
  | .text pieces => [.scalar (textOf pieces) false]
  | .array _ items => .flowSequenceStart :: items.tokens true ++ [.flowSequenceEnd]
  | .object _ members => .flowMappingStart :: members.tokens true ++ [.flowMappingEnd]

/-- The tokens of the items of an array, with a comma before each but the first. -/
def WrittenItems.tokens (first : Bool) : WrittenItems → List Yaml.Token
  | .nil => []
  | .cons _ item _ rest => commaTokens first ++ item.tokens ++ rest.tokens false

/-- The tokens of the members of an object, with a comma before each but the first. -/
def WrittenMembers.tokens (first : Bool) : WrittenMembers → List Yaml.Token
  | .nil => []
  | .cons _ name _ _ item _ rest =>
    commaTokens first ++ [.key, .scalar (textOf name) false, .value] ++ item.tokens
      ++ rest.tokens false

end

variable {level : Nat} {tokens : List Yaml.Token} {rest : List Char}

/-- The characters of a portable gap are passed over. -/
theorem Blank.passed {blank : Blank} (portable : blank.isPortable = true) :
    ∀ c ∈ blank.chars, isPassed c = true := by
  intro c member
  have noTab : c ≠ '\t' := by
    rintro rfl
    rw [Blank.isPortable, List.contains_iff_mem.mpr member] at portable
    cases portable
  have space := blank.blank c member
  simp only [isSpace, Bool.or_eq_true, beq_iff_eq, noTab, or_false] at space
  rw [isPassed_iff]
  tauto

/-- A number begins a word. -/
theorem beginsWord_number (number : Number) : BeginsWord number.chars := by
  obtain ⟨c, others, whole, digit⟩ := number.exists_whole
  have member := mem_of_isDigit digit
  have first : number.unsignedChars.head? = some c := by
    rw [Number.unsignedChars, whole]
    rfl
  rw [Number.chars]
  split
  · exact ⟨'-', _, rfl, .inr ⟨rfl, c, first, member⟩⟩
  · have letters : ∀ c ∈ "0123456789".toList, c ∈ "ntf0123456789".toList :=
      Text.forall_mem_of_all (by decide)
    obtain ⟨behind, same⟩ := List.head?_eq_some_iff.mp first
    exact ⟨c, behind, same, .inl (letters c member)⟩

/-- The characters of a number are parts of a word. -/
theorem isWordPart_number (number : Number) : ∀ c ∈ number.chars, Plain.isWordPart c = true := by
  have parts : ∀ c ∈ "0123456789.+-eE".toList, Plain.isWordPart c = true :=
    Text.forall_mem_of_all (by decide)
  exact fun c member => parts c (number.mem_chars member)

/-- An item has ended behind a gap if it has ended where the gap does. -/
theorem endsItem_dropWhile {gap text : List Char} (passed : ∀ c ∈ gap, isPassed c = true)
    (ends : EndsItem text) : EndsItem ((gap ++ text).dropWhile isPassed) := by
  rwa [List.dropWhile_append_of_pos passed, ends.isClear.dropWhile]

/-- A comma or the closing bracket stands behind an item. -/
theorem endsItem_items (items : WrittenItems) (rest : List Char) :
    EndsItem (items.chars false ++ ']' :: rest) := by
  cases items <;> simp [WrittenItems.chars, commaChars, EndsItem]

/-- An item has ended where other members or a closing brace follow. -/
theorem endsItem_members (members : WrittenMembers) (rest : List Char) :
    EndsItem (members.chars false ++ '}' :: rest) := by
  cases members <;> simp [WrittenMembers.chars, commaChars, EndsItem]

/-- A reading in brackets in front of a part; a name may begin where the part is the first. -/
def IsAtPart (first : Bool) (level : Nat) (tokens : List Yaml.Token) (text : List Char)
    (reading : Reading) : Prop :=
  reading.IsAt level tokens text ∧ (first = true → reading.keyAllowed = true)

/-- The comma in front of all parts but the first. -/
theorem reaches_part (first : Bool) (level : Nat) (tokens : List Yaml.Token) (text : List Char) :
    Reaches (commaChars first).length (IsAtPart first level tokens (commaChars first ++ text))
      (IsAtName level ((commaTokens first).reverse ++ tokens) text) := by
  cases first with
  | true =>
    apply (Reaches.refl _).imp (fun reading place => place) fun reading place => ?_
    exact ⟨place.1, place.2 rfl⟩
  | false => exact reaches_comma.imp (fun reading place => place.1) fun reading place => place

/-- The tokens of a collection: its opening bracket, what is inside, and its closing bracket. -/
theorem reaches_collection {opening closing : Char} {start final : Yaml.Token}
    {gap inside : List Char} {inner : List Yaml.Token} (passed : ∀ c ∈ gap, isPassed c = true)
    (opens : opening = '[' ∧ start = .flowSequenceStart ∨ opening = '{' ∧ start = .flowMappingStart)
    (holds : Reaches (inside.length + 1)
      (IsAtPart true (level + 1) (start :: tokens) (inside ++ closing :: rest))
      (IsAt level (final :: (inner.reverse ++ start :: tokens)) rest)) :
    Reaches (opening :: gap ++ inside ++ [closing]).length
      (IsAt level tokens (opening :: gap ++ inside ++ [closing] ++ rest))
      (IsAt level ((start :: inner ++ [final]).reverse ++ tokens) rest) := by
  have text : opening :: gap ++ inside ++ [closing] ++ rest =
      opening :: (gap ++ (inside ++ closing :: rest)) := by simp
  have whole : (start :: inner ++ [final]).reverse ++ tokens =
      final :: (inner.reverse ++ start :: tokens) := by simp
  rw [text, whole]
  refine ((reaches_open opens).trans (holds.imp ?_ fun reading place => place)).mono ?_
  · rintro reading ⟨place, allowed⟩
    exact ⟨isAt_append passed _ ▸ place, fun _ => allowed⟩
  · simp
    omega

/-- The tokens of a value with blanks around it, in front of the end of its item. -/
theorem reaches_item {before item after text : List Char} {inner : List Yaml.Token}
    (passedBefore : ∀ c ∈ before, isPassed c = true) (passedAfter : ∀ c ∈ after, isPassed c = true)
    (ends : EndsItem text)
    (holds : ∀ rest, EndsItem (rest.dropWhile isPassed) → Reaches item.length
      (IsAt (level + 1) tokens (item ++ rest)) (IsAt (level + 1) (inner.reverse ++ tokens) rest)) :
    Reaches item.length (IsAt (level + 1) tokens (before ++ (item ++ (after ++ text))))
      (IsAtPart false (level + 1) (inner.reverse ++ tokens) text) := by
  have here := holds (after ++ text) (endsItem_dropWhile passedAfter ends)
  rw [isAt_append passedAfter] at here
  rw [isAt_append passedBefore]
  exact here.imp (fun reading place => place) fun reading place => ⟨place, nofun⟩

mutual

/-- The tokens of a value between brackets are read where its characters stand. -/
theorem reaches_written (written : Written) (legible : written.isLegible = true)
    (level : Nat) (tokens : List Yaml.Token) {rest : List Char}
    (ends : EndsItem (rest.dropWhile isPassed)) :
    Reaches written.chars.length (IsAt (level + 1) tokens (written.chars ++ rest))
      (IsAt (level + 1) (written.tokens.reverse ++ tokens) rest) := by
  cases written with
  | null =>
    have begins : BeginsWord "null".toList := ⟨'n', _, rfl, .inl (by decide)⟩
    exact (reaches_word begins (Text.forall_mem_of_all (by decide)) ends).mono (by decide)
  | bool b =>
    cases b with
    | false =>
      have begins : BeginsWord "false".toList := ⟨'f', _, rfl, .inl (by decide)⟩
      exact (reaches_word begins (Text.forall_mem_of_all (by decide)) ends).mono (by decide)
    | true =>
      have begins : BeginsWord "true".toList := ⟨'t', _, rfl, .inl (by decide)⟩
      exact (reaches_word begins (Text.forall_mem_of_all (by decide)) ends).mono (by decide)
  | number number =>
    have begins := beginsWord_number number
    have some : 0 < number.chars.length := by
      obtain ⟨c, others, same, -⟩ := begins
      rw [same]
      exact Nat.succ_pos _
    exact (reaches_word begins (isWordPart_number number) ends).mono some
  | text pieces =>
    rw [Written.isLegible, List.all_eq_true] at legible
    exact (reaches_text legible).mono (Nat.succ_pos _)
  | array gap items =>
    rw [Written.isLegible, Bool.and_eq_true] at legible
    exact reaches_collection (Blank.passed legible.1) (.inl ⟨rfl, rfl⟩)
      (reaches_items items legible.2 true _ _ _)
  | object gap members =>
    rw [Written.isLegible, Bool.and_eq_true] at legible
    exact reaches_collection (Blank.passed legible.1) (.inr ⟨rfl, rfl⟩)
      (reaches_members members legible.2 true _ _ _)

/-- The tokens of the items of an array up to its closing bracket. -/
theorem reaches_items (items : WrittenItems) (legible : items.isLegible = true) (first : Bool)
    (level : Nat) (tokens : List Yaml.Token) (rest : List Char) :
    Reaches ((items.chars first).length + 1)
      (IsAtPart first (level + 1) tokens (items.chars first ++ ']' :: rest))
      (IsAt level (.flowSequenceEnd :: ((items.tokens first).reverse ++ tokens)) rest) := by
  cases items with
  | nil =>
    exact (reaches_close (.inl ⟨rfl, rfl⟩)).imp (fun reading place => place.1)
      fun reading place => place
  | cons before item after others =>
    simp only [WrittenItems.isLegible, Bool.and_eq_true] at legible
    obtain ⟨⟨⟨beforePortable, itemLegible⟩, afterPortable⟩, othersLegible⟩ := legible
    have comma := reaches_part first (level + 1) tokens
      (before.chars ++ (item.chars ++ (after.chars ++ (others.chars false ++ ']' :: rest))))
    have here := reaches_item (Blank.passed beforePortable) (Blank.passed afterPortable)
      (endsItem_items others rest) fun rest ends =>
        reaches_written item itemLegible level ((commaTokens first).reverse ++ tokens) ends
    have behind := reaches_items others othersLegible false level
      (item.tokens.reverse ++ ((commaTokens first).reverse ++ tokens)) rest
    have all := (comma.imp (fun reading place => place) fun reading place => place.1).trans
      (here.trans behind)
    simp only [WrittenItems.chars, WrittenItems.tokens, List.reverse_append, List.append_assoc]
    apply all.mono
    simp only [List.length_append]
    omega

/-- The tokens of the members of an object up to its closing brace. -/
theorem reaches_members (members : WrittenMembers) (legible : members.isLegible = true)
    (first : Bool) (level : Nat) (tokens : List Yaml.Token) (rest : List Char) :
    Reaches ((members.chars first).length + 1)
      (IsAtPart first (level + 1) tokens (members.chars first ++ '}' :: rest))
      (IsAt level (.flowMappingEnd :: ((members.tokens first).reverse ++ tokens)) rest) := by
  cases members with
  | nil =>
    exact (reaches_close (.inr ⟨rfl, rfl⟩)).imp (fun reading place => place.1)
      fun reading place => place
  | cons before name beforeColon afterColon item after others =>
    simp only [WrittenMembers.isLegible, Bool.and_eq_true] at legible
    obtain ⟨⟨⟨⟨⟨beforePortable, namePortable⟩, colonPortable⟩, itemLegible⟩, afterPortable⟩,
      othersLegible⟩ := legible
    simp only [isPortableName, Bool.and_eq_true, List.all_eq_true, beq_iff_eq,
      decide_eq_true_eq] at namePortable
    obtain ⟨⟨pieces, spaces⟩, near⟩ := namePortable
    let behindColon := afterColon.chars ++ (item.chars ++ (after.chars ++
      (others.chars false ++ '}' :: rest)))
    let started := (commaTokens first).reverse ++ tokens
    have comma := reaches_part first (level + 1) tokens
      (before.chars ++ (quotedChars name ++ (beforeColon.chars ++ ':' :: behindColon)))
    have named : Reaches 2
        (IsAtName (level + 1) started
          (quotedChars name ++ (beforeColon.chars ++ ':' :: behindColon)))
        (IsAt (level + 1) (.value :: .scalar (textOf name) false :: .key :: started) behindColon) :=
      reaches_name pieces spaces near
    have here := reaches_item (Blank.passed colonPortable) (Blank.passed afterPortable)
      (endsItem_members others rest) fun rest ends => reaches_written item itemLegible level
        (.value :: .scalar (textOf name) false :: .key :: started) ends
    have behind := reaches_members others othersLegible false level
      (item.tokens.reverse ++ .value :: .scalar (textOf name) false :: .key :: started) rest
    have passed := @isAt_append (level + 1) started before.chars (Blank.passed beforePortable)
      (quotedChars name ++ (beforeColon.chars ++ ':' :: behindColon))
    have all := (comma.imp (fun reading place => place) fun reading place =>
      ⟨passed ▸ place.1, place.2⟩).trans (named.trans (here.trans behind))
    have text :
        (WrittenMembers.cons before name beforeColon afterColon item after others).chars first
          ++ '}' :: rest = commaChars first ++ (before.chars ++ (quotedChars name ++
          (beforeColon.chars ++ ':' :: behindColon))) := by
      simp [WrittenMembers.chars, behindColon]
    have whole :
        ((WrittenMembers.cons before name beforeColon afterColon item after others).tokens
          first).reverse ++ tokens = (others.tokens false).reverse ++ (item.tokens.reverse ++
            .value :: .scalar (textOf name) false :: .key :: started) := by
      simp [WrittenMembers.tokens, started]
    rw [text, whole]
    apply all.mono
    simp only [WrittenMembers.chars, quotedChars, List.length_append, List.length_cons]
    omega

end

/-- The characters of a portable gap are allowed in a document. -/
theorem isAllowed_blank {blank : Blank} (portable : blank.isPortable = true) :
    blank.chars.all isAllowed = true := by
  rw [List.all_eq_true]
  intro c member
  rcases isPassed_iff.mp (Blank.passed portable c member) with rfl | rfl | rfl <;> rfl

/-- The characters of a portable quoted text are allowed in a document. -/
theorem isAllowed_quotedChars {pieces : List Piece}
    (portable : pieces.all Piece.isPortable = true) :
    (quotedChars pieces).all isAllowed = true := by
  rw [List.all_eq_true] at portable ⊢
  exact fun c member => (Quoted.isInline_quotedChars portable member).1

/-- Commas are allowed in a document. -/
theorem isAllowed_commaChars (first : Bool) : (commaChars first).all isAllowed = true := by
  cases first <;> rfl

mutual

/-- The characters of a portable value may stand in a document. -/
theorem isAllowed_written (written : Written) (legible : written.isLegible = true) :
    written.chars.all isAllowed = true := by
  cases written with
  | null => rfl
  | bool b => cases b <;> rfl
  | number number =>
    have allowed : ∀ c ∈ "0123456789.+-eE".toList, isAllowed c = true :=
      Text.forall_mem_of_all (by decide)
    exact List.all_eq_true.mpr fun c member => allowed c (number.mem_chars member)
  | text pieces => exact isAllowed_quotedChars legible
  | array gap items =>
    rw [Written.isLegible, Bool.and_eq_true] at legible
    simp [Written.chars, isAllowed_blank legible.1, isAllowed_items items legible.2 true]
    decide
  | object gap members =>
    rw [Written.isLegible, Bool.and_eq_true] at legible
    simp [Written.chars, isAllowed_blank legible.1, isAllowed_members members legible.2 true]
    decide

/-- The characters of legible items are allowed in a document. -/
theorem isAllowed_items (items : WrittenItems) (legible : items.isLegible = true) (first : Bool) :
    (items.chars first).all isAllowed = true := by
  cases items with
  | nil => rfl
  | cons before item after others =>
    simp only [WrittenItems.isLegible, Bool.and_eq_true] at legible
    obtain ⟨⟨⟨beforePortable, itemLegible⟩, afterPortable⟩, othersLegible⟩ := legible
    simp only [WrittenItems.chars, List.all_append, isAllowed_commaChars,
      isAllowed_blank beforePortable, isAllowed_written item itemLegible,
      isAllowed_blank afterPortable, isAllowed_items others othersLegible false]
    rfl

/-- The characters of legible members are allowed in a document. -/
theorem isAllowed_members (members : WrittenMembers) (legible : members.isLegible = true)
    (first : Bool) : (members.chars first).all isAllowed = true := by
  cases members with
  | nil => rfl
  | cons before name beforeColon afterColon item after others =>
    simp only [WrittenMembers.isLegible, Bool.and_eq_true] at legible
    obtain ⟨⟨⟨⟨⟨beforePortable, namePortable⟩, colonPortable⟩, itemLegible⟩, afterPortable⟩,
      othersLegible⟩ := legible
    rw [isPortableName, Bool.and_eq_true, Bool.and_eq_true] at namePortable
    have spaces : beforeColon.chars.all isAllowed = true := by
      rw [List.all_eq_true]
      intro c member
      rw [beq_iff_eq.mp (List.all_eq_true.mp namePortable.1.2 c member)]
      rfl
    simp only [WrittenMembers.chars, List.all_append, List.all_cons, isAllowed_commaChars,
      isAllowed_blank beforePortable, isAllowed_quotedChars namePortable.1.1, spaces,
      isAllowed_blank colonPortable, isAllowed_written item itemLegible,
      isAllowed_blank afterPortable, isAllowed_members others othersLegible false]
    rfl

end

/-- Whether a value is written in brackets. -/
def Written.isCollection : Written → Bool
  | .array _ _ | .object _ _ => true
  | _ => false

/-- The tokens of a collection, wherever it stands. -/
theorem reaches_root (written : Written) (legible : written.isLegible = true)
    (collection : written.isCollection = true) (level : Nat) (tokens : List Yaml.Token)
    (rest : List Char) :
    Reaches written.chars.length (IsAt level tokens (written.chars ++ rest))
      (IsAt level (written.tokens.reverse ++ tokens) rest) := by
  cases written with
  | array gap items =>
    rw [Written.isLegible, Bool.and_eq_true] at legible
    exact reaches_collection (Blank.passed legible.1) (.inl ⟨rfl, rfl⟩)
      (reaches_items items legible.2 true _ _ _)
  | object gap members =>
    rw [Written.isLegible, Bool.and_eq_true] at legible
    exact reaches_collection (Blank.passed legible.1) (.inr ⟨rfl, rfl⟩)
      (reaches_members members legible.2 true _ _ _)
  | _ => cases collection

namespace Document

variable {document : Document}

/-- The characters of a legible document are allowed. -/
theorem isAllowed_text (legible : document.isLegible = true) :
    document.text.toList.all isAllowed = true := by
  simp only [isLegible, Bool.and_eq_true] at legible
  simp only [text, String.toList_ofList, List.all_append, isAllowed_blank legible.1.1,
    isAllowed_written document.root legible.1.2, isAllowed_blank legible.2]
  rfl

/-- The reading of a document begins at its value. -/
theorem isAt_start (legible : document.isLegible = true)
    (collection : document.root.isCollection = true) :
    IsAt 0 [] (document.root.chars ++ document.after.chars) (.start document.text.toList) := by
  simp only [isLegible, Bool.and_eq_true] at legible
  have passed := Blank.passed legible.1.1
  obtain ⟨c, others, root, bracket⟩ :
      ∃ c others, document.root.chars = c :: others ∧ c ≠ '\uFEFF' := by
    cases written : document.root with
    | array gap items => exact ⟨'[', _, rfl, by decide⟩
    | object gap members => exact ⟨'{', _, rfl, by decide⟩
    | _ => rw [written] at collection; cases collection
  have noMark : document.text.toList.head? ≠ some '\uFEFF' := by
    intro first
    rw [text, String.toList_ofList, root] at first
    cases blanks : document.before.chars with
    | nil =>
      rw [blanks] at first
      exact bracket (Option.some.inj first)
    | cons d rest =>
      rw [blanks] at first passed
      have space := passed d List.mem_cons_self
      rw [Option.some.inj first] at space
      cases space
  rw [← isAt_append passed, ← List.append_assoc]
  rw [Reading.start, if_neg noMark, text, String.toList_ofList]
  exact ⟨⟨rfl, rfl, List.forall_mem_nil _⟩, rfl, rfl, rfl⟩

/-- **The tokens of a legible document** whose value is written in brackets are those of its
value. -/
theorem ofText_text (legible : document.isLegible = true)
    (collection : document.root.isCollection = true) :
    Yaml.Token.ofText document.text.toList = document.root.tokens ++ [.streamEnd] := by
  have parts := legible
  simp only [isLegible, Bool.and_eq_true] at parts
  obtain ⟨last, place, taken, few, same⟩ :=
    reaches_root document.root parts.1.2 collection 0 [] document.after.chars
      (isAt_start legible collection)
  have nothing : last.cursor.ahead = [] :=
    place.ahead.trans (List.dropWhile_eq_nil_iff.mpr (Blank.passed parts.2))
  have length : document.text.toList.length + 2 =
      taken + (document.text.toList.length + 1 - taken + 1) := by
    have whole : document.root.chars.length ≤ document.text.toList.length := by
      rw [text, String.toList_ofList, List.length_append, List.length_append]
      omega
    omega
  rw [Yaml.Token.ofText, if_pos (isAllowed_text legible), length, same,
    finish_end place.free nothing, place.taken]
  simp

end Document
end Stencil.Json
