import Stencil.Fault

/-!
# Policies

What stands in the resolved text for a reference without a value.
-/

namespace Stencil

/-- The treatment of references without a value: the word undefined, nothing, the reference as
written, or a fault. -/
inductive Policy
  | literal
  | empty
  | keep
  | raise
  deriving DecidableEq, Repr

namespace Policy

/-- The policies in the order in which they are listed. -/
def all : List Policy :=
  [.literal, .empty, .keep, .raise]

/-- The name of a policy. -/
def name : Policy → String
  | .literal => "literal"
  | .empty => "empty"
  | .keep => "keep"
  | .raise => "raise"

/-- The policy of a name. -/
def ofName? (text : String) : Option Policy :=
  all.find? (·.name == text)

/-- The policy of a name that should be one. -/
def ofName (text : String) : Outcome Policy :=
  match ofName? text with
  | some policy => .ok policy
  | none => .error (.notChoice text "OnUnresolved")

/-- The policy that a call asks for by name; without a name, the configured one. -/
def chosen (configured : Policy) (name : Option String) : Outcome Policy :=
  match name with
  | some name => ofName name
  | none => .ok configured

/-- The text put in place of a reference without a value, given the reference as written. -/
def placeholder (policy : Policy) (raw : String) : String :=
  match policy with
  | .literal => "undefined"
  | .empty => ""
  | .keep | .raise => raw

end Policy
end Stencil
