/-!
# Holes in a text

A hole is a pair of opening braces, a body and a pair of closing braces. The body holds no closing
brace, and no pair of opening braces begins in it, so closing braces always end the nearest hole
that is open. A text is a sequence of tokens, each a hole or a single character, and holes are
taken from the left. The main statement is `source_tokens`: the tokens of a text spell the text.
-/

namespace Stencil

/-- A piece of a text: a character that stands for itself, or a hole. -/
inductive Token
  | char (c : Char)
  | hole (body : List Char)
  deriving DecidableEq, Repr

namespace Token

/-- The body of the hole whose opening braces stand in front of a text. -/
def body? : List Char → Option (List Char)
  | [] => none
  | c :: rest =>
    if c = '}' then
      if rest.head? = some '}' then some [] else none
    else if c = '{' ∧ rest.head? = some '{' then none
    else (body? rest).map (c :: ·)

/-- The body of the hole that a text begins with. -/
def hole? : List Char → Option (List Char)
  | '{' :: '{' :: rest => body? rest
  | _ => none

/-- The characters of a hole: its body between two braces on either side. -/
def holeSource (body : List Char) : List Char :=
  '{' :: '{' :: body ++ ['}', '}']

/-- The characters of a token. -/
def source : Token → List Char
  | .char c => [c]
  | .hole body => holeSource body

/-- The tokens of a text whose first `skip` characters belong to a token already taken. -/
def scan : (skip : Nat) → List Char → List Token
  | _, [] => []
  | skip + 1, _ :: rest => scan skip rest
  | 0, c :: rest =>
    match hole? (c :: rest) with
    | some body => .hole body :: scan (body.length + 3) rest
    | none => .char c :: scan 0 rest

/-- The tokens of a text. -/
def tokens (text : List Char) : List Token :=
  scan 0 text

/-- The bodies of the holes among tokens, in order. -/
def bodies : List Token → List (List Char)
  | [] => []
  | .char _ :: rest => bodies rest
  | .hole body :: rest => body :: bodies rest

/-- The body of a hole stands in front of its closing braces. -/
theorem eq_append_of_body? {text body : List Char} (found : body? text = some body) :
    ∃ rest, text = body ++ '}' :: '}' :: rest := by
  induction text generalizing body with
  | nil => simp [body?] at found
  | cons c rest ih =>
    rw [body?] at found
    split at found
    · rename_i brace
      split at found
      · rename_i second
        obtain ⟨after, rfl⟩ := List.head?_eq_some_iff.mp second
        cases found
        exact ⟨after, by simp [brace]⟩
      · cases found
    · split at found
      · cases found
      · obtain ⟨inner, innerFound, rfl⟩ := Option.map_eq_some_iff.mp found
        obtain ⟨after, rfl⟩ := ih innerFound
        exact ⟨after, rfl⟩

/-- A hole at the front of a text is its opening braces, its body and its closing braces. -/
theorem eq_append_of_hole? {text body : List Char} (found : hole? text = some body) :
    ∃ rest, text = holeSource body ++ rest := by
  rw [hole?.eq_def] at found
  split at found
  · obtain ⟨after, rfl⟩ := eq_append_of_body? found
    exact ⟨after, by simp [holeSource]⟩
  · cases found

/-- Skipping characters is scanning what is left of the text. -/
theorem scan_eq_drop (skip : Nat) (text : List Char) :
    scan skip text = scan 0 (text.drop skip) := by
  induction skip generalizing text with
  | zero => simp
  | succ skip ih =>
    cases text with
    | nil => simp [scan]
    | cons c rest => simpa [scan] using ih rest

/-- A hole as written is four characters longer than its body. -/
theorem length_holeSource (body : List Char) : (holeSource body).length = body.length + 4 := by
  simp [holeSource]

/-- A text that begins with no hole gives its first character as a token. -/
theorem tokens_cons {c : Char} {rest : List Char} (solid : hole? (c :: rest) = none) :
    tokens (c :: rest) = .char c :: tokens rest := by
  rw [tokens, scan, solid]
  rfl

/-- A text that begins with a hole gives the hole as a token and goes on behind it. -/
theorem tokens_hole {body rest : List Char} (found : hole? (holeSource body ++ rest) = some body) :
    tokens (holeSource body ++ rest) = .hole body :: tokens rest := by
  obtain ⟨tail, begins⟩ : ∃ tail, holeSource body ++ rest = '{' :: tail := ⟨_, rfl⟩
  have behind : tail.drop (body.length + 3) = rest := by
    have dropped : (holeSource body ++ rest).drop (holeSource body).length = rest := List.drop_left
    rwa [begins, length_holeSource, List.drop_succ_cons] at dropped
  rw [begins] at found ⊢
  rw [tokens, scan, found]
  change Token.hole body :: scan (body.length + 3) tail = _
  rw [scan_eq_drop, behind]
  rfl

/-- Induction along the tokens of a text: it is empty, begins with a character or begins with a
hole. -/
@[elab_as_elim]
theorem tokens_induction {motive : List Char → Prop} (nil : motive [])
    (char : ∀ c rest, hole? (c :: rest) = none → motive rest → motive (c :: rest))
    (hole : ∀ body rest, hole? (holeSource body ++ rest) = some body → motive rest →
      motive (holeSource body ++ rest))
    (text : List Char) : motive text := by
  induction size : text.length using Nat.strongRecOn generalizing text with
  | ind length ih =>
    cases text with
    | nil => exact nil
    | cons c rest =>
      cases found : hole? (c :: rest) with
      | none => exact char c rest found (ih rest.length (by simp [← size]) rest rfl)
      | some body =>
        obtain ⟨behind, whole⟩ := eq_append_of_hole? found
        rw [whole] at found size ⊢
        refine hole body behind found (ih behind.length ?_ behind rfl)
        rw [← size, List.length_append, length_holeSource]
        omega

/-- The tokens of a text spell the text. -/
theorem source_tokens (text : List Char) : (tokens text).flatMap source = text := by
  induction text using tokens_induction with
  | nil => rfl
  | char c rest solid ih =>
    rw [tokens_cons solid, List.flatMap_cons, ih, source, List.singleton_append]
  | hole body rest found ih => rw [tokens_hole found, List.flatMap_cons, ih, source]

end Token
end Stencil
