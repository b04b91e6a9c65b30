import Mathlib.Data.List.TakeWhile
import Stencil.Text.Blank

/-!
# Pieces of a text

Trimming and splitting leave parts of a text. A text has nothing to lose by trimming exactly if no
blank stands at either end (`trim_eq_self_iff`), and a piece between separators holds no separator
(`of_mem_splitOn`). Trimmed pieces do not depend on the blanks around the text
(`map_trim_splitOn_trim`), and the pieces of one text are the first ones of another exactly if the
other goes on behind a separator, if at all (`splitOn_isPrefix_iff`).
-/

namespace Stencil.Text

/-- What each of a few characters is tested for holds of all of them. -/
theorem forall_mem_of_all {letters : List Char} {holds : Char → Prop} [DecidablePred holds]
    (tested : letters.all (fun c => decide (holds c)) = true) : ∀ c ∈ letters, holds c :=
  fun c member => of_decide_eq_true (List.all_eq_true.mp tested c member)

/-- A text is cut in front of the first character that does not pass a test. -/
theorem span_append {test : Char → Bool} {front rest : List Char}
    (passes : ∀ c ∈ front, test c = true) (stops : ∀ c ∈ rest.head?, test c = false) :
    (front ++ rest).takeWhile test = front ∧ (front ++ rest).dropWhile test = rest := by
  rw [List.takeWhile_append_of_pos passes, List.dropWhile_append_of_pos passes]
  cases rest with
  | nil => simp
  | cons c others => simp [stops c rfl]

/-- A text begins with no blank. -/
def BeginsSolid (text : List Char) : Prop :=
  ∀ c ∈ text.head?, isBlank c = false

/-- A text ends with no blank. -/
def EndsSolid (text : List Char) : Prop :=
  ∀ c ∈ text.getLast?, isBlank c = false

/-- Trimming the front changes nothing if and only if the text begins solid. -/
theorem trimStart_eq_self_iff (text : List Char) : trimStart text = text ↔ BeginsSolid text := by
  cases text with
  | nil => simp [BeginsSolid]
  | cons c rest =>
    rw [trimStart, List.dropWhile_eq_self_iff]
    simp [BeginsSolid]

/-- Trimming the end changes nothing if and only if the text ends solid. -/
theorem trimEnd_eq_self_iff (text : List Char) : trimEnd text = text ↔ EndsSolid text := by
  have mirrored := trimStart_eq_self_iff text.reverse
  rw [BeginsSolid, List.head?_reverse] at mirrored
  rw [EndsSolid, ← mirrored, trimEnd, trimStart, List.reverse_eq_iff]

/-- A text trimmed at the front is an end of the text. -/
theorem trimStart_isSuffix (text : List Char) : trimStart text <:+ text :=
  List.dropWhile_suffix _

/-- A text trimmed at the end is a beginning of the text. -/
theorem trimEnd_isPrefix (text : List Char) : trimEnd text <+: text := by
  rw [← List.reverse_suffix, trimEnd, List.reverse_reverse]
  exact List.dropWhile_suffix _

/-- A trimmed text is a part of the text. -/
theorem trim_infix (text : List Char) : trim text <:+: text :=
  (trimEnd_isPrefix _).isInfix.trans (trimStart_isSuffix _).isInfix

/-- A text is trimmed if no blank stands at either end. -/
theorem trim_eq_self_iff (text : List Char) :
    trim text = text ↔ BeginsSolid text ∧ EndsSolid text := by
  rw [← trimStart_eq_self_iff, ← trimEnd_eq_self_iff]
  constructor
  · intro trimmed
    have front : trimStart text = text := by
      refine (trimStart_isSuffix text).eq_of_length_le ?_
      calc text.length = (trim text).length := by rw [trimmed]
        _ ≤ (trimStart text).length := (trimEnd_isPrefix _).length_le
    exact ⟨front, by rwa [trim, front] at trimmed⟩
  · rintro ⟨front, back⟩
    rw [trim, front, back]

/-- A text without blanks is trimmed. -/
theorem trim_of_forall_mem {text : List Char} (solid : ∀ c ∈ text, isBlank c = false) :
    trim text = text :=
  (trim_eq_self_iff text).mpr ⟨fun c first => solid c (List.mem_of_mem_head? first),
    fun c last => solid c (List.mem_of_mem_getLast? last)⟩

/-- A text that begins with no blank begins alike when it is trimmed. -/
theorem head?_trim {text : List Char} (solid : BeginsSolid text) :
    (trim text).head? = text.head? := by
  rw [trim, (trimStart_eq_self_iff text).mpr solid]
  cases text with
  | nil => rfl
  | cons c rest =>
    obtain ⟨kept, trimmed⟩ := trimEnd_cons rest (solid c rfl)
    rw [trimmed, List.head?_cons, List.head?_cons]

theorem BeginsSolid.append {front : List Char} (solid : BeginsSolid front) (some : front ≠ [])
    (back : List Char) : BeginsSolid (front ++ back) := by
  intro c first
  rw [List.head?_append, List.head?_eq_some_head some, Option.some_or] at first
  exact solid c (by rwa [List.head?_eq_some_head some])

/-- A text begins with a blank only if what stands in front of another character does. -/
theorem beginsSolid_append_cons_iff {front back : List Char} {c : Char}
    (solid : isBlank c = false) : BeginsSolid (front ++ c :: back) ↔ BeginsSolid front := by
  cases front with
  | nil => simp [BeginsSolid, solid]
  | cons d rest => rw [BeginsSolid, BeginsSolid, List.cons_append, List.head?_cons, List.head?_cons]

/-- A text ends with a blank only if what stands behind another character does. -/
theorem endsSolid_append_cons_iff {front back : List Char} {c : Char} (solid : isBlank c = false) :
    EndsSolid (front ++ c :: back) ↔ EndsSolid back := by
  cases back with
  | nil => simp [EndsSolid, solid]
  | cons d rest =>
    have last : (front ++ c :: d :: rest).getLast? = (d :: rest).getLast? := by
      rw [List.getLast?_append, List.getLast?_cons_cons,
        List.getLast?_eq_some_getLast (List.cons_ne_nil d rest), Option.some_or]
    rw [EndsSolid, EndsSolid, last]

/-- Only what stands behind another character is lost at the end of a text. -/
theorem trimEnd_append_cons {c : Char} (solid : isBlank c = false) (front back : List Char) :
    trimEnd (front ++ c :: back) = front ++ c :: trimEnd back := by
  rw [trimEnd, trimEnd, List.reverse_append, List.reverse_cons, List.append_assoc,
    List.dropWhile_append]
  split_ifs with blank
  · rw [List.isEmpty_iff.mp blank, List.singleton_append,
      List.dropWhile_cons_of_neg (by simp [solid])]
    simp
  · simp

/-- Blanks in front of a text do not change what is left when its front is trimmed. -/
theorem trimStart_append_of_blank {front : List Char} (blank : isBlankText front = true)
    (text : List Char) : trimStart (front ++ text) = trimStart text := by
  have nothing := (isBlankText_iff_trimStart front).mp blank
  rw [trimStart] at nothing
  rw [trimStart, List.dropWhile_append, nothing]
  rfl

/-- Blanks behind a text do not change what is left when its end is trimmed. -/
theorem trimEnd_append_of_blank {back : List Char} (blank : isBlankText back = true)
    (text : List Char) : trimEnd (text ++ back) = trimEnd text := by
  have mirrored : isBlankText back.reverse = true := by rwa [isBlankText, List.all_reverse]
  have same := trimStart_append_of_blank mirrored text.reverse
  rw [trimStart, trimStart] at same
  rw [trimEnd, trimEnd, List.reverse_append, same]

/-- Blanks in front of a text are lost when it is trimmed. -/
theorem trim_append_left {front : List Char} (blank : isBlankText front = true)
    (text : List Char) : trim (front ++ text) = trim text := by
  rw [trim, trim, trimStart_append_of_blank blank]

/-- Blanks behind a text are lost when it is trimmed. -/
theorem trim_append_right {back : List Char} (blank : isBlankText back = true)
    (text : List Char) : trim (text ++ back) = trim text := by
  have nothing := (isBlankText_iff_trimStart back).mp blank
  rw [trimStart] at nothing
  rw [trim, trim, trimStart, List.dropWhile_append, nothing]
  split_ifs with empty
  · rw [trimStart, List.isEmpty_iff.mp empty]
  · exact trimEnd_append_of_blank blank _

/-- A text is what trimming leaves, with blanks around it. -/
theorem exists_blanks_trim (text : List Char) : ∃ front back, text = front ++ trim text ++ back ∧
    isBlankText front = true ∧ isBlankText back = true := by
  refine ⟨text.takeWhile isBlank, ((trimStart text).reverse.takeWhile isBlank).reverse, ?_, ?_, ?_⟩
  · have kept : trim text ++ ((trimStart text).reverse.takeWhile isBlank).reverse =
        trimStart text := by
      rw [trim, trimEnd, ← List.reverse_append, List.takeWhile_append_dropWhile,
        List.reverse_reverse]
    rw [List.append_assoc, kept, trimStart, List.takeWhile_append_dropWhile]
  · exact List.all_takeWhile
  · rw [isBlankText, List.all_reverse]
    exact List.all_takeWhile

/-- A piece between separators is a part of the text that holds no separator. -/
theorem of_mem_splitOn {separator : Char} {text piece : List Char}
    (member : piece ∈ text.splitOn separator) : separator ∉ piece ∧ piece <:+: text := by
  induction size : text.length using Nat.strongRecOn generalizing text with
  | ind length ih =>
    by_cases cut : separator ∈ text
    · obtain ⟨front, back, rfl, fresh⟩ := List.eq_append_cons_of_mem cut
      rw [List.splitOn_append_cons_self_of_not_mem fresh, List.mem_cons] at member
      rcases member with rfl | later
      · exact ⟨fresh, (List.prefix_append _ _).isInfix⟩
      · have shorter : back.length < length := by
          rw [← size, List.length_append, List.length_cons]
          omega
        obtain ⟨without, inside⟩ := ih back.length shorter later rfl
        have behind : back <:+ front ++ separator :: back :=
          (List.suffix_cons separator back).trans (List.suffix_append _ _)
        exact ⟨without, inside.trans behind.isInfix⟩
    · rw [List.splitOn_eq_singleton cut, List.mem_singleton] at member
      rw [member]
      exact ⟨cut, List.infix_rfl⟩

/-- A character that is no separator comes from one of the pieces. -/
theorem exists_mem_of_mem_intercalate {separator c : Char} {pieces : List (List Char)}
    (member : c ∈ [separator].intercalate pieces) (apart : c ≠ separator) :
    ∃ piece ∈ pieces, c ∈ piece := by
  induction pieces with
  | nil => cases member
  | cons piece rest ih =>
    cases rest with
    | nil => exact ⟨piece, List.mem_cons_self, by simpa using member⟩
    | cons next others =>
      rw [List.intercalate_cons_cons, List.mem_append, List.mem_append,
        List.mem_singleton] at member
      rcases member with (here | same) | later
      · exact ⟨piece, List.mem_cons_self, here⟩
      · exact absurd same apart
      · obtain ⟨found, among, inside⟩ := ih later
        exact ⟨found, List.mem_cons_of_mem piece among, inside⟩

/-- A character that is no separator is in one of the pieces. -/
theorem exists_mem_splitOn {separator c : Char} {text : List Char} (member : c ∈ text)
    (apart : c ≠ separator) : ∃ piece ∈ text.splitOn separator, c ∈ piece := by
  have whole : [separator].intercalate (text.splitOn separator) = text :=
    List.intercalate_splitOn separator
  rw [← whole] at member
  exact exists_mem_of_mem_intercalate member apart

section Solid

variable {separator : Char} {pieces : List (List Char)}

/-- Pieces with a separator between them begin with a blank only if the first one does. -/
theorem beginsSolid_intercalate_iff (solid : isBlank separator = false) :
    BeginsSolid ([separator].intercalate pieces) ↔
      ∀ first ∈ pieces.head?, BeginsSolid first := by
  cases pieces with
  | nil => simp [BeginsSolid]
  | cons piece rest =>
    cases rest with
    | nil => simp
    | cons next others =>
      rw [List.intercalate_cons_cons, List.append_assoc, List.singleton_append,
        beginsSolid_append_cons_iff solid]
      simp

/-- Pieces with a separator between them end with a blank only if the last one does. -/
theorem endsSolid_intercalate_iff (solid : isBlank separator = false) :
    EndsSolid ([separator].intercalate pieces) ↔ ∀ last ∈ pieces.getLast?, EndsSolid last := by
  induction pieces with
  | nil => simp [EndsSolid]
  | cons piece rest ih =>
    cases rest with
    | nil => simp
    | cons next others =>
      rw [List.intercalate_cons_cons, List.append_assoc, List.singleton_append,
        endsSolid_append_cons_iff solid, ih, List.getLast?_cons_cons]

/-- Trimmed pieces make a trimmed text. -/
theorem trim_intercalate (solid : isBlank separator = false)
    (trimmed : ∀ piece ∈ pieces, trim piece = piece) :
    trim ([separator].intercalate pieces) = [separator].intercalate pieces := by
  rw [trim_eq_self_iff, beginsSolid_intercalate_iff solid, endsSolid_intercalate_iff solid]
  exact ⟨fun first head => ((trim_eq_self_iff first).mp
      (trimmed first (List.mem_of_mem_head? head))).1,
    fun last end' => ((trim_eq_self_iff last).mp (trimmed last (List.mem_of_mem_getLast? end'))).2⟩

end Solid

/-- The pieces of one text are the first ones of another if the other goes on behind a separator,
if at all. -/
theorem splitOn_isPrefix_iff {separator : Char} {front text : List Char} :
    front.splitOn separator <+: text.splitOn separator ↔
      text = front ∨ front ++ [separator] <+: text := by
  have cut (behind : List Char) : (front ++ separator :: behind).splitOn separator =
      front.splitOn separator ++ behind.splitOn separator :=
    List.splitOnP_append_cons front behind (by simp)
  constructor
  · rintro ⟨more, goesOn⟩
    by_cases none : more = []
    · rw [none, List.append_nil] at goesOn
      left
      rw [← @List.intercalate_splitOn _ text _ _ separator, ← goesOn, List.intercalate_splitOn]
    · have fresh : ∀ piece ∈ more, separator ∉ piece := fun piece member =>
        (of_mem_splitOn (goesOn ▸ List.mem_append_right _ member)).1
      have same := cut ([separator].intercalate more)
      rw [List.splitOn_intercalate separator fresh none, goesOn] at same
      right
      rw [← @List.intercalate_splitOn _ text _ _ separator, ← same, List.intercalate_splitOn]
      exact ⟨[separator].intercalate more, by simp⟩
  · rintro (rfl | ⟨behind, rfl⟩)
    · exact List.prefix_rfl
    · rw [List.append_assoc, List.singleton_append, cut]
      exact List.prefix_append _ _

section Split

variable {separator : Char} {blanks : List Char}

/-- Blanks in front of a text do not change its trimmed parts. -/
theorem map_trim_splitOn_append_left (apart : separator ∉ blanks)
    (blank : isBlankText blanks = true) (text : List Char) :
    ((blanks ++ text).splitOn separator).map trim = (text.splitOn separator).map trim := by
  by_cases cut : separator ∈ text
  · obtain ⟨piece, rest, rfl, fresh⟩ := List.eq_append_cons_of_mem cut
    have still : separator ∉ blanks ++ piece := by simp [apart, fresh]
    rw [← List.append_assoc, List.splitOn_append_cons_self_of_not_mem still,
      List.splitOn_append_cons_self_of_not_mem fresh, List.map_cons, List.map_cons,
      trim_append_left blank]
  · have still : separator ∉ blanks ++ text := by simp [apart, cut]
    rw [List.splitOn_eq_singleton still, List.splitOn_eq_singleton cut, List.map_singleton,
      List.map_singleton, trim_append_left blank]

/-- Blanks behind a text do not change its trimmed parts. -/
theorem map_trim_splitOn_append_right (apart : separator ∉ blanks)
    (blank : isBlankText blanks = true) (text : List Char) :
    ((text ++ blanks).splitOn separator).map trim = (text.splitOn separator).map trim := by
  by_cases cut : separator ∈ text
  · obtain ⟨front, piece, rfl, fresh⟩ : ∃ front piece, text = front ++ separator :: piece ∧
        separator ∉ piece := by
      obtain ⟨back, rest, mirrored, fresh⟩ :=
        List.eq_append_cons_of_mem (List.mem_reverse.mpr cut)
      exact ⟨rest.reverse, back.reverse, by simpa using congrArg List.reverse mirrored,
        by simpa using fresh⟩
    have still : separator ∉ piece ++ blanks := by simp [apart, fresh]
    have last (back : List Char) : (front ++ separator :: back).splitOn separator =
        front.splitOn separator ++ back.splitOn separator :=
      List.splitOnP_append_cons front back (by simp)
    rw [List.append_assoc, List.cons_append, last, last, List.splitOn_eq_singleton still,
      List.splitOn_eq_singleton fresh, List.map_append, List.map_append, List.map_singleton,
      List.map_singleton, trim_append_right blank]
  · have still : separator ∉ text ++ blanks := by simp [apart, cut]
    rw [List.splitOn_eq_singleton still, List.splitOn_eq_singleton cut, List.map_singleton,
      List.map_singleton, trim_append_right blank]

/-- The blanks around a text do not matter to its trimmed pieces. -/
theorem map_trim_splitOn_trim (solid : isBlank separator = false) (text : List Char) :
    ((trim text).splitOn separator).map trim = (text.splitOn separator).map trim := by
  have apart {blanks : List Char} (blank : isBlankText blanks = true) : separator ∉ blanks := by
    intro member
    rw [List.all_eq_true.mp blank separator member] at solid
    cases solid
  obtain ⟨front, back, whole, blankFront, blankBack⟩ := exists_blanks_trim text
  calc ((trim text).splitOn separator).map trim
      = ((front ++ trim text ++ back).splitOn separator).map trim := by
        rw [map_trim_splitOn_append_right (apart blankBack) blankBack,
          map_trim_splitOn_append_left (apart blankFront) blankFront]
    _ = (text.splitOn separator).map trim := by rw [← whole]

end Split

end Stencil.Text
