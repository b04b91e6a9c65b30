import Stencil.Proofs.Outcome
import Stencil.Proofs.Yaml.Blank

/-!
# Readings without open block collections

How a reading without open block collections and required keys goes on: it passes blanks and takes
the mark that follows (`Reading.finish_arrived`), or ends where nothing is left
(`Reading.finish_end`). `Reading.Reaches` says of two kinds of readings that each of the first leads
to one of the second within a number of steps; steps of this form are put together for each kind of
token, and then for each kind of document, without another look at how a reading goes on.
-/

namespace Stencil.Yaml.Token

open Outcome

namespace Reading

/-- From each reading of one kind one of another kind is reached within a number of steps. -/
def Reaches (steps : Nat) (before after : Reading → Prop) : Prop :=
  ∀ ⦃first⦄, before first → ∃ last, after last ∧
    ∃ taken ≤ steps, ∀ more, first.finish (taken + more) = last.finish more

namespace Reaches

variable {before between after : Reading → Prop} {steps more : Nat}

theorem refl (before : Reading → Prop) : Reaches 0 before before := by
  intro first holds
  exact ⟨first, holds, 0, Nat.le_refl 0, fun more => by rw [Nat.zero_add]⟩

theorem trans (start : Reaches steps before between) (goesOn : Reaches more between after) :
    Reaches (steps + more) before after := by
  intro first holds
  obtain ⟨middle, held, taken, few, same⟩ := start holds
  obtain ⟨last, ends, later, fewer, sameLater⟩ := goesOn held
  refine ⟨last, ends, taken + later, Nat.add_le_add few fewer, ?_⟩
  intro further
  rw [Nat.add_assoc, same, sameLater]

theorem imp {earlier later : Reading → Prop} (reached : Reaches steps before after)
    (starts : ∀ reading, earlier reading → before reading)
    (ends : ∀ reading, after reading → later reading) : Reaches steps earlier later := by
  intro first holds
  obtain ⟨last, held, taken⟩ := reached (starts first holds)
  exact ⟨last, ends last held, taken⟩

theorem mono (reached : Reaches steps before after) (fewer : steps ≤ more) :
    Reaches more before after := by
  intro first holds
  obtain ⟨last, ends, taken, few, same⟩ := reached holds
  exact ⟨last, ends, taken, few.trans fewer, same⟩

end Reaches

/-- A reading that goes on without open block collections and without keys that must follow. -/
structure IsFree (reading : Reading) : Prop where
  noBlock : reading.indents = []
  running : reading.ended = false
  optional : ∀ waiting ∈ reading.candidates, waiting.required = false

/-- A reading with a number of open brackets and given tokens in front of a text. -/
structure IsAt (level : Nat) (tokens : List Token) (text : List Char) (reading : Reading) :
    Prop where
  free : reading.IsFree
  open_eq : reading.level = level
  taken : reading.tokens = tokens
  ahead : reading.cursor.ahead = text.dropWhile isPassed

/-- Blanks in front of a text do not matter. -/
theorem isAt_append {level : Nat} {tokens : List Token} {gap : List Char}
    (passed : ∀ c ∈ gap, isPassed c = true) (text : List Char) :
    IsAt level tokens (gap ++ text) = IsAt level tokens text := by
  have same : (gap ++ text).dropWhile isPassed = text.dropWhile isPassed :=
    List.dropWhile_append_of_pos passed
  funext reading
  apply propext
  constructor
  · rintro ⟨free, open_eq, taken, ahead⟩
    exact ⟨free, open_eq, taken, ahead.trans same⟩
  · rintro ⟨free, open_eq, taken, ahead⟩
    exact ⟨free, open_eq, taken, ahead.trans same.symm⟩

/-- A text that begins with a token of a collection in brackets. -/
structure BeginsToken (c : Char) (rest : List Char) : Prop where
  solid : isGap (some c) = false
  noComment : c ≠ '#'
  noDirective : c ≠ '%'
  noDots : c ≠ '.'
  noDashes : c = '-' → rest.head? ≠ some '-'

variable {reading : Reading}

/-- A reading without its stale candidates. -/
def fresh (reading : Reading) : Reading :=
  { reading with candidates := reading.candidates.filter (!reading.isStale ·) }

/-- A reading behind the blanks at its place. -/
def passed (reading : Reading) : Reading :=
  skipGaps (reading.cursor.rest.length + 1) reading

/-- A reading at its next token. -/
def arrived (reading : Reading) : Reading :=
  reading.fresh.passed.fresh

/-- A reading with fewer candidates stays free. -/
theorem IsFree.of_subset {other : Reading} (free : reading.IsFree)
    (noBlock : other.indents = reading.indents) (running : other.ended = reading.ended)
    (fewer : other.candidates ⊆ reading.candidates) : other.IsFree :=
  ⟨noBlock.trans free.noBlock, running.trans free.running,
    fun waiting member => free.optional waiting (fewer member)⟩

/-- A free reading without its stale candidates is free. -/
theorem IsFree.fresh (free : reading.IsFree) : reading.fresh.IsFree :=
  free.of_subset rfl rfl List.filter_sublist.subset

/-- A free reading behind its blanks is free. -/
theorem IsFree.passed (free : reading.IsFree) : reading.passed.IsFree := by
  obtain ⟨cursor, keyAllowed, same⟩ := exists_skipGaps (reading.cursor.rest.length + 1) reading
  rw [Reading.passed, same]
  exact free.of_subset rfl rfl (List.Subset.refl _)

/-- A free reading at its next token is free. -/
theorem IsFree.arrived (free : reading.IsFree) : reading.arrived.IsFree :=
  free.fresh.passed.fresh

/-- A reading at its next token has the tokens and the open brackets that it had. -/
theorem arrived_fields : reading.arrived.tokens = reading.tokens ∧
    reading.arrived.level = reading.level := by
  obtain ⟨cursor, keyAllowed, same⟩ :=
    exists_skipGaps (reading.fresh.cursor.rest.length + 1) reading.fresh
  rw [arrived, passed, same]
  exact ⟨rfl, rfl⟩

/-- A reading arrives behind the blanks ahead of it. -/
theorem arrived_rest (clear : IsClear reading.cursor.ahead) :
    reading.arrived.cursor.rest = reading.cursor.ahead :=
  @rest_skipGaps reading.fresh _ clear (Nat.lt_succ_self _)

/-- Inside brackets, arriving does not change whether a key is allowed. -/
theorem arrived_keyAllowed (inside : reading.inFlow = true) :
    reading.arrived.keyAllowed = reading.keyAllowed :=
  @keyAllowed_skipGaps reading.fresh _ inside

/-- Stale candidates of a free reading are dropped. -/
theorem dropStale_eq (free : reading.IsFree) : reading.dropStale = .ok reading.fresh := by
  rw [dropStale, if_neg]
  · rfl
  · intro stale
    obtain ⟨waiting, member, required⟩ := List.any_eq_true.mp stale
    rw [free.optional waiting member, Bool.and_false] at required
    cases required

/-- The candidate of the level of a free reading is dropped. -/
theorem dropCandidate_eq (free : reading.IsFree) : reading.dropCandidate =
    .ok { reading with candidates := reading.candidates.filter (·.level != reading.level) } := by
  rw [dropCandidate, if_neg]
  intro stale
  obtain ⟨waiting, member, required⟩ := List.any_eq_true.mp stale
  rw [free.optional waiting member, Bool.and_false] at required
  cases required

/-- A free reading has no blocks to close. -/
theorem closeBlocks_eq (free : reading.IsFree) (column : Option Nat) :
    reading.closeBlocks column = reading := by
  rw [closeBlocks]
  split
  · rfl
  · have none := free.noBlock
    cases reading
    cases none
    rfl

/-- What begins a token is no blank and no comment. -/
theorem BeginsToken.isClear {c : Char} {rest : List Char} (begins : BeginsToken c rest) :
    IsClear (c :: rest) := by
  intro d first
  cases first
  exact ⟨begins.solid, begins.noComment⟩

/-- No mark of a document begins with a token of a collection in brackets. -/
theorem BeginsToken.startsMark {c : Char} {rest : List Char} {cursor : Cursor}
    (begins : BeginsToken c rest) (left : cursor.rest = c :: rest) :
    cursor.startsMark "---" = false ∧ cursor.startsMark "..." = false := by
  have dashes : "---".toList.isPrefixOf (c :: rest) = false := by
    change ('-' == c && ['-', '-'].isPrefixOf rest) = false
    by_cases dash : c = '-'
    · cases rest with
      | nil => simp
      | cons d others =>
        have apart : '-' ≠ d := fun same => begins.noDashes dash (congrArg some same.symm)
        change ('-' == c && ('-' == d && ['-'].isPrefixOf others)) = false
        simp [apart]
    · simp [Ne.symm dash]
  have dots : "...".toList.isPrefixOf (c :: rest) = false := by
    change ('.' == c && ['.', '.'].isPrefixOf rest) = false
    simp [begins.noDots.symm]
  rw [Cursor.startsMark, Cursor.startsMark, Cursor.startsWith, Cursor.startsWith, left, dashes,
    dots]
  exact ⟨rfl, rfl⟩

/-- A step of a free reading is one of the steps to the end. -/
theorem finish_succ {next : Reading} (free : reading.IsFree)
    (advances : reading.fresh.advance = .ok next) (steps : Nat) :
    reading.finish (steps + 1) = next.finish steps := by
  rw [finish, if_neg (by rw [free.running]; exact Bool.false_ne_true), dropStale_eq free]
  dsimp only
  rw [advances]

/-- The token ahead is what a reading takes next. -/
theorem finish_arrived {c : Char} {rest : List Char} {next : Reading} (free : reading.IsFree)
    (ahead : reading.cursor.ahead = c :: rest) (begins : BeginsToken c rest)
    (taken : reading.arrived.takeMark c rest.head? = .ok next) (steps : Nat) :
    reading.finish (steps + 1) = next.finish steps := by
  have clear : IsClear reading.cursor.ahead := ahead ▸ begins.isClear
  have left : reading.arrived.cursor.rest = c :: rest := (arrived_rest clear).trans ahead
  obtain ⟨noDashes, noDots⟩ := begins.startsMark left
  have dropped : dropStale (skipGaps (reading.fresh.cursor.rest.length + 1) reading.fresh) =
      .ok reading.arrived := dropStale_eq free.fresh.passed
  apply finish_succ free
  rw [advance]
  dsimp only
  rw [dropped, ok_bind, closeBlocks_eq free.arrived, left]
  simp only [begins.noDirective, noDashes, noDots, decide_false, Bool.and_false,
    Bool.false_eq_true, if_false]
  exact taken

/-- A reading that has nothing but blanks ahead ends with its tokens. -/
theorem finish_end (free : reading.IsFree) (nothing : reading.cursor.ahead = []) (steps : Nat) :
    reading.finish (steps + 1) = reading.tokens.reverse ++ [.streamEnd] := by
  have clear : IsClear reading.cursor.ahead := by
    rw [nothing]
    intro c first
    cases first
  have left : reading.arrived.cursor.rest = [] := (arrived_rest clear).trans nothing
  have dropped : dropStale (skipGaps (reading.fresh.cursor.rest.length + 1) reading.fresh) =
      .ok reading.arrived := dropStale_eq free.fresh.passed
  have advances : ∃ next, reading.fresh.advance = .ok next ∧ next.ended = true ∧
      next.tokens = .streamEnd :: reading.tokens := by
    rw [advance]
    dsimp only
    rw [dropped, ok_bind, closeBlocks_eq free.arrived, left]
    dsimp only
    rw [endToken, closeBlocks_eq free.arrived, dropCandidate_eq free.arrived]
    exact ⟨_, rfl, rfl, congrArg (_ :: ·) arrived_fields.1⟩
  obtain ⟨next, taken, ended, tokens⟩ := advances
  rw [finish_succ free taken, ← List.reverse_cons, ← tokens]
  cases steps with
  | zero => rfl
  | succ steps => rw [finish, if_pos ended]

/-- A reading in front of a token, with a number of open brackets and given tokens. -/
structure Faces (level : Nat) (tokens : List Token) (text : List Char) (reading : Reading) :
    Prop where
  free : reading.IsFree
  open_eq : reading.level = level
  taken : reading.tokens = tokens
  left : reading.cursor.rest = text

variable {level : Nat} {tokens : List Token} {c : Char} {rest : List Char}

/-- A reading in front of a token has it ahead. -/
theorem IsAt.ahead_eq (place : reading.IsAt level tokens (c :: rest))
    (begins : BeginsToken c rest) : reading.cursor.ahead = c :: rest :=
  place.ahead.trans begins.isClear.dropWhile

/-- A reading in front of a token faces it when it has arrived. -/
theorem IsAt.faces (place : IsAt level tokens (c :: rest) reading) (begins : BeginsToken c rest) :
    Faces level tokens (c :: rest) reading.arrived := by
  have ahead := place.ahead_eq begins
  have clear : IsClear reading.cursor.ahead := ahead ▸ begins.isClear
  exact ⟨place.free.arrived, arrived_fields.2.trans place.open_eq,
    arrived_fields.1.trans place.taken, (arrived_rest clear).trans ahead⟩

/-- A step with the token ahead. -/
theorem reaches_of_takeMark {before after : Reading → Prop} (begins : BeginsToken c rest)
    (starts : ∀ reading, before reading → ∃ level tokens, reading.IsAt level tokens (c :: rest))
    (takes : ∀ reading, before reading →
      ∃ next, reading.arrived.takeMark c rest.head? = .ok next ∧ after next) :
    Reaches 1 before after := by
  intro reading holds
  obtain ⟨level, tokens, place⟩ := starts reading holds
  obtain ⟨next, taken, reached⟩ := takes reading holds
  refine ⟨next, reached, 1, Nat.le_refl 1, ?_⟩
  intro more
  rw [Nat.add_comm, finish_arrived place.free (place.ahead_eq begins) begins taken]

end Reading
end Stencil.Yaml.Token
