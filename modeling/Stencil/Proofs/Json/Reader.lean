import Stencil.Proofs.Json.Scalar

/-!
# Written documents are read

Whatever blanks, escapes and forms of numbers the writer of a document of the JSON format chooses,
reading it gives what it is written for (`Json.Document.read?_text`), so a text that is written in
two ways stands for one document only (`Json.Document.json_unique`). The number of characters bounds
the number of steps.
-/

namespace Stencil.Json

mutual

/-- The document that a value as it is written stands for. -/
def Written.json : Written → Json
  | .null => .null
  | .bool b => .bool b
  | .number number => number.json
  | .text pieces => .text (textOf pieces)
  | .array _ items => .array items.json
  | .object _ members => .object members.json

/-- The items of a written array. -/
def WrittenItems.json : WrittenItems → List Json
  | .nil => []
  | .cons _ item _ rest => item.json :: rest.json

/-- The members of a written object. -/
def WrittenMembers.json : WrittenMembers → List (String × Json)
  | .nil => []
  | .cons _ name _ _ item _ rest => (textOf name, item.json) :: rest.json

end

section Gaps

variable {rest : List Char}

theorem skip_append {gap : List Char} (blank : ∀ c ∈ gap, isSpace c = true) :
    skip (gap ++ rest) = skip rest :=
  List.dropWhile_append_of_pos blank

theorem skip_eq_self (solid : ∀ c ∈ rest.head?, isSpace c = false) : skip rest = rest :=
  (@Text.span_append isSpace [] rest (List.forall_mem_nil _) solid).2

/-- A number ends where space follows it. -/
theorem Blank.endsNumber (gap : Blank) : EndsNumber gap.chars := by
  intro c first
  have space := gap.blank c (List.mem_of_mem_head? first)
  simp only [isSpace, Bool.or_eq_true, beq_iff_eq] at space
  rcases space with ((rfl | rfl) | rfl) | rfl <;> decide

/-- Blanks, and the marks between and behind values, end a number. -/
theorem Blank.endsNumber_mark (gap : Blank) {mark : Char} (known : mark ∈ ",]\x7d".toList)
    (others : List Char) : EndsNumber (gap.chars ++ mark :: others) := by
  intro c first
  rw [List.head?_append, Option.mem_def, Option.or_eq_some_iff] at first
  rcases first with blank | ⟨-, same⟩
  · exact gap.endsNumber c blank
  · have marks : ∀ c ∈ ",]\x7d".toList, c.isDigit = false ∧ c ≠ '.' ∧ c ≠ 'e' ∧ c ≠ 'E' :=
      Text.forall_mem_of_all (by decide)
    exact marks c (Option.some.inj same ▸ known)

end Gaps

/-- A written value begins with the mark of its kind. -/
theorem Written.head?_chars (written : Written) :
    ∃ c ∈ "-0123456789ntf\"[\x7b".toList, written.chars.head? = some c := by
  cases written with
  | null => exact ⟨'n', by decide, rfl⟩
  | bool b =>
    cases b
    · exact ⟨'f', by decide, rfl⟩
    · exact ⟨'t', by decide, rfl⟩
  | number number =>
    obtain ⟨c, member, first⟩ := number.head?_chars
    have wider : ∀ c ∈ "-0123456789".toList, c ∈ "-0123456789ntf\"[\x7b".toList :=
      Text.forall_mem_of_all (by decide)
    exact ⟨c, wider c member, first⟩
  | text pieces => exact ⟨'"', by decide, rfl⟩
  | array gap items => exact ⟨'[', by decide, rfl⟩
  | object gap members => exact ⟨'\x7b', by decide, rfl⟩

/-- A written value as its first character and the others. -/
theorem Written.exists_chars (written : Written) : ∃ c others, written.chars = c :: others ∧
    isSpace c = false ∧ c ≠ ']' := by
  obtain ⟨c, member, first⟩ := written.head?_chars
  have marks : ∀ c ∈ "-0123456789ntf\"[\x7b".toList, isSpace c = false ∧ c ≠ ']' :=
    Text.forall_mem_of_all (by decide)
  obtain ⟨others, chars⟩ := List.head?_eq_some_iff.mp first
  exact ⟨c, others, chars, marks c member⟩

section Steps

variable {text rest : List Char} {steps : Nat}

/-- A written number is read as the number it stands for. -/
theorem take?_number (number : Number) (ends : EndsNumber rest) :
    take? (steps + 1) (number.chars ++ rest) = some (number.json, rest) := by
  obtain ⟨c, member, first⟩ := number.head?_chars
  have apart : ∀ c ∈ "-0123456789".toList, c ∉ "ntf\"[\x7b".toList :=
    Text.forall_mem_of_all (by decide)
  obtain ⟨others, chars⟩ := List.head?_eq_some_iff.mp first
  rw [← takeNumber?_append number ends, chars, List.cons_append]
  have other := apart c member
  rw [take?]
  all_goals
    intro behind same
    rw [(List.cons.inj same).1] at other
    exact other (by decide)

/-- An array that is not empty is read item by item. -/
theorem take?_array (filled : ∀ others, skip text ≠ ']' :: others) :
    take? (steps + 1) ('[' :: text) =
      (takeItems? steps (skip text)).map fun taken => (.array taken.1, taken.2) := by
  rw [take?]
  split
  · rename_i others same
    exact absurd same (filled others)
  · cases takeItems? steps (skip text) <;> rfl

/-- An object that is not empty is read member by member. -/
theorem take?_object (filled : ∀ others, skip text ≠ '\x7d' :: others) :
    take? (steps + 1) ('\x7b' :: text) =
      (takeMembers? steps (skip text)).map fun taken => (.object taken.1, taken.2) := by
  rw [take?]
  split
  · rename_i others same
    exact absurd same (filled others)
  · cases takeMembers? steps (skip text) <;> rfl

variable {item : Json} {behind : List Char}

/-- The last item is read in front of a closing bracket. -/
theorem takeItems?_last (taken : take? steps text = some (item, behind))
    (ends : skip behind = ']' :: rest) : takeItems? (steps + 1) text = some ([item], rest) := by
  simp [takeItems?, taken, ends]

/-- An item in front of a comma is read together with those behind it. -/
theorem takeItems?_next (taken : take? steps text = some (item, behind))
    (goesOn : skip behind = ',' :: rest) : takeItems? (steps + 1) text =
      (takeItems? steps (skip rest)).map fun taken => (item :: taken.1, taken.2) := by
  simp only [takeItems?, taken, goesOn, Option.bind_eq_bind, Option.bind_some]
  cases takeItems? steps (skip rest) <;> rfl

variable {afterName afterColon : List Char} {name : List Piece}

/-- A member is read up to what stands behind its value. -/
theorem takeMembers?_last (colon : skip afterName = ':' :: afterColon)
    (taken : take? steps (skip afterColon) = some (item, behind))
    (ends : skip behind = '\x7d' :: rest) :
    takeMembers? (steps + 1) ('"' :: (name.flatMap Piece.chars ++ '"' :: afterName)) =
      some ([(textOf name, item)], rest) := by
  simp only [takeMembers?, takeText?_quoted, colon, taken, ends, Option.bind_eq_bind,
    Option.bind_some]
  rfl

/-- A member in front of a comma is read together with those behind it. -/
theorem takeMembers?_next (colon : skip afterName = ':' :: afterColon)
    (taken : take? steps (skip afterColon) = some (item, behind))
    (goesOn : skip behind = ',' :: rest) :
    takeMembers? (steps + 1) ('"' :: (name.flatMap Piece.chars ++ '"' :: afterName)) =
      (takeMembers? steps (skip rest)).map fun taken =>
        ((textOf name, item) :: taken.1, taken.2) := by
  simp only [takeMembers?, takeText?_quoted, colon, taken, goesOn, Option.bind_eq_bind,
    Option.bind_some]
  cases takeMembers? steps (skip rest) <;> rfl

end Steps

/-- Items go on with a comma if there are any. -/
theorem WrittenItems.chars_false (items : WrittenItems) :
    (items = .nil ∧ items.chars false = []) ∨
      (items ≠ .nil ∧ items.chars false = ',' :: items.chars true) := by
  cases items with
  | nil => exact .inl ⟨rfl, rfl⟩
  | cons before item after others => exact .inr ⟨nofun, rfl⟩

/-- Behind another member, members are written with a comma in front. -/
theorem WrittenMembers.chars_false (members : WrittenMembers) :
    (members = .nil ∧ members.chars false = []) ∨
      (members ≠ .nil ∧ members.chars false = ',' :: members.chars true) := by
  cases members with
  | nil => exact .inl ⟨rfl, rfl⟩
  | cons before name beforeColon afterColon item after others => exact .inr ⟨nofun, rfl⟩

/-- A value begins behind the blanks in front of it. -/
theorem skip_written (gap : Blank) (item : Written) (rest : List Char) :
    skip (gap.chars ++ (item.chars ++ rest)) = item.chars ++ rest := by
  obtain ⟨c, behind, chars, solid, -⟩ := item.exists_chars
  rw [skip_append gap.blank]
  apply skip_eq_self
  rw [chars]
  rintro first begins
  cases begins
  exact solid

/-- Items begin with the first one, behind its blanks. -/
theorem skip_items (before after : Blank) (item : Written) (others : WrittenItems)
    (rest : List Char) : skip ((WrittenItems.cons before item after others).chars true ++ rest) =
      item.chars ++ (after.chars ++ (others.chars false ++ rest)) := by
  have text : (WrittenItems.cons before item after others).chars true ++ rest =
      before.chars ++ (item.chars ++ (after.chars ++ (others.chars false ++ rest))) := by
    simp [WrittenItems.chars, commaChars]
  rw [text, skip_written]

/-- Skipping leads to the name of the first member. -/
theorem skip_members (before beforeColon afterColon after : Blank) (name : List Piece)
    (item : Written) (others : WrittenMembers) (rest : List Char) :
    skip ((WrittenMembers.cons before name beforeColon afterColon item after others).chars true ++
        rest) =
      '"' :: (name.flatMap Piece.chars ++ '"' :: (beforeColon.chars ++ ':' ::
        (afterColon.chars ++ (item.chars ++ (after.chars ++ (others.chars false ++ rest)))))) := by
  have text : (WrittenMembers.cons before name beforeColon afterColon item after others).chars true
      ++ rest = before.chars ++ '"' :: (name.flatMap Piece.chars ++ '"' ::
        (beforeColon.chars ++ ':' :: (afterColon.chars ++ (item.chars ++ (after.chars ++
          (others.chars false ++ rest)))))) := by
    simp [WrittenMembers.chars, commaChars, quotedChars]
  rw [text, skip_append before.blank]
  apply skip_eq_self
  rintro first begins
  cases begins
  decide

mutual

/-- A written value is read up to what ends it. -/
theorem take?_written (written : Written) {steps : Nat} {rest : List Char}
    (enough : written.chars.length < steps) (ends : EndsNumber rest) :
    take? steps (written.chars ++ rest) = some (written.json, rest) := by
  obtain ⟨fewer, rfl⟩ : ∃ fewer, steps = fewer + 1 := ⟨steps - 1, by omega⟩
  cases written with
  | null => rfl
  | bool b => cases b <;> rfl
  | number number => exact take?_number number ends
  | text pieces =>
    have text : (Written.text pieces).chars ++ rest =
        '"' :: (pieces.flatMap Piece.chars ++ '"' :: rest) := by
      simp [Written.chars, quotedChars]
    rw [text, take?, takeText?_quoted]
    rfl
  | array gap items =>
    have text : (Written.array gap items).chars ++ rest =
        '[' :: (gap.chars ++ (items.chars true ++ ']' :: rest)) := by
      simp [Written.chars]
    simp only [Written.chars, List.length_append, List.length_cons] at enough
    rw [text]
    cases items with
    | nil =>
      -- the bracket ends an array without items only behind the blanks between the two
      rw [take?, skip_append gap.blank]
      rfl
    | cons before item after others =>
      have inside := @takeItems?_written (.cons before item after others) nofun fewer rest
        (by omega)
      rw [take?_array, skip_append gap.blank, inside]
      · rfl
      · intro behind same
        obtain ⟨c, more, chars, -, noEnd⟩ := item.exists_chars
        rw [skip_append gap.blank, skip_items, chars] at same
        exact noEnd (List.cons.inj same).1
  | object gap members =>
    have text : (Written.object gap members).chars ++ rest =
        '\x7b' :: (gap.chars ++ (members.chars true ++ '\x7d' :: rest)) := by
      simp [Written.chars]
    simp only [Written.chars, List.length_append, List.length_cons] at enough
    rw [text]
    cases members with
    | nil =>
      rw [take?, skip_append gap.blank]
      rfl
    | cons before name beforeColon afterColon item after others =>
      have inside := @takeMembers?_written
        (.cons before name beforeColon afterColon item after others) nofun fewer rest (by omega)
      rw [take?_object, skip_append gap.blank, inside]
      · rfl
      · intro behind same
        rw [skip_append gap.blank, skip_members] at same
        cases (List.cons.inj same).1

/-- The items of a written array are read back. -/
theorem takeItems?_written (items : WrittenItems) (filled : items ≠ .nil) {steps : Nat}
    {rest : List Char} (enough : (items.chars true).length + 1 < steps) :
    takeItems? steps (skip (items.chars true ++ ']' :: rest)) = some (items.json, rest) := by
  obtain ⟨fewer, rfl⟩ : ∃ fewer, steps = fewer + 1 := ⟨steps - 1, by omega⟩
  cases items with
  | nil => exact absurd rfl filled
  | cons before item after others =>
    obtain ⟨c, more, chars, -⟩ := item.exists_chars
    have some : 0 < item.chars.length := chars ▸ Nat.succ_pos _
    -- the item and the comma behind it use up two characters, and only one step
    simp only [WrittenItems.chars, List.length_append] at enough
    rw [skip_items]
    obtain ⟨rfl, last⟩ | ⟨goesOn, comma⟩ := others.chars_false
    · rw [last, List.nil_append]
      exact takeItems?_last
        (take?_written item (by omega) (after.endsNumber_mark (by decide) rest))
        (skip_append after.blank)
    · rw [comma, List.length_cons] at enough
      rw [comma, List.cons_append, takeItems?_next
        (take?_written item (by omega) (after.endsNumber_mark (by decide) _))
        (skip_append after.blank), takeItems?_written others goesOn (by omega)]
      rfl

/-- The members of a written object are read back. -/
theorem takeMembers?_written (members : WrittenMembers) (filled : members ≠ .nil) {steps : Nat}
    {rest : List Char} (enough : (members.chars true).length + 1 < steps) :
    takeMembers? steps (skip (members.chars true ++ '\x7d' :: rest)) =
      some (members.json, rest) := by
  obtain ⟨fewer, rfl⟩ : ∃ fewer, steps = fewer + 1 := ⟨steps - 1, by omega⟩
  cases members with
  | nil => exact absurd rfl filled
  | cons before name beforeColon afterColon item after others =>
    have value {tail : List Char} (ends : EndsNumber tail) (within : item.chars.length < fewer) :
        take? fewer (skip (afterColon.chars ++ (item.chars ++ tail))) = some (item.json, tail) := by
      rw [skip_written]
      exact take?_written item within ends
    simp only [WrittenMembers.chars, List.length_append, List.length_cons] at enough
    rw [skip_members]
    obtain ⟨rfl, last⟩ | ⟨goesOn, comma⟩ := others.chars_false
    · rw [last, List.nil_append]
      exact takeMembers?_last (skip_append beforeColon.blank)
        (value (after.endsNumber_mark (by decide) rest) (by omega)) (skip_append after.blank)
    · rw [comma, List.length_cons] at enough
      rw [comma, List.cons_append, takeMembers?_next (skip_append beforeColon.blank)
        (value (after.endsNumber_mark (by decide) _) (by omega)) (skip_append after.blank),
        takeMembers?_written others goesOn (by omega)]
      rfl

end

/-- Every written document is read. -/
theorem Document.read?_text (document : Document) :
    read? document.text.toList = some document.root.json := by
  have text : document.text.toList =
      document.before.chars ++ (document.root.chars ++ document.after.chars) := by
    rw [Document.text, String.toList_ofList, List.append_assoc]
  have enough : document.root.chars.length < document.text.toList.length + 1 := by
    rw [text, List.length_append, List.length_append]
    omega
  have rest : (skip document.after.chars).isEmpty = true := by
    rw [skip, List.dropWhile_eq_nil_iff.mpr document.after.blank]
    rfl
  rw [read?, text, skip_written, ← text,
    take?_written document.root enough document.after.endsNumber]
  exact if_pos rest

/-- A text is written for one document only. -/
theorem Document.json_unique {first second : Document} (same : first.text = second.text) :
    first.root.json = second.root.json := by
  have read := first.read?_text
  rw [same, second.read?_text] at read
  exact (Option.some.inj read).symm

end Stencil.Json
