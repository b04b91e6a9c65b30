import Stencil.Resolve.Policy
import Stencil.Resolve.Reference
import Stencil.Value.Json

/-!
# Resolving a text

A text is gone through once, from the left. A hole that is met for the first time is read, resolved
and remembered; a hole that stands in the text again takes the text remembered for it. What is
filled in is not looked at again.
-/

namespace Stencil

/-- A reference with what it resolves to and the text of its value, if it has one. -/
structure Filling where
  reference : Reference
  resolution : Resolution
  shown : Option String

namespace Filling

/-- A reference resolved among values, with the text of its value. -/
def ofReference (registry : Registry) (values : Fields Value) (reference : Reference) :
    Outcome Filling := do
  let resolution ← reference.resolve registry values
  return ⟨reference, resolution, ← resolution.value.shown?⟩

/-- The filling of a hole at a position. -/
def ofHole (registry : Registry) (values : Fields Value) (position : Nat) (body : List Char) :
    Outcome Filling := do
  ofReference registry values (← Reference.ofHole position body)

/-- The text put in place of a reference. -/
def replacement (policy : Policy) (filling : Filling) : String :=
  filling.shown.getD (policy.placeholder filling.reference.raw)

end Filling

/-- What is remembered of the holes of a text. -/
structure Memo where
  /-- The texts put in place of holes, under the holes as written. -/
  replacements : Fields String
  diagnostics : List Diagnostic
  /-- The paths that led nowhere, without repeats. -/
  unresolved : List String
  /-- The paths of the references that ended without a value. -/
  undefined : List String

namespace Memo

/-- The memory of a text before its first hole. -/
def empty : Memo :=
  ⟨[], [], [], []⟩

/-- The memory with one more filling, of a hole that was not met before. -/
def record (policy : Policy) (memo : Memo) (filling : Filling) : Memo :=
  let path := filling.reference.path
  { replacements :=
      Fields.set filling.reference.raw (filling.replacement policy) memo.replacements
    diagnostics := memo.diagnostics ++ filling.resolution.diagnostics
    unresolved :=
      if filling.resolution.resolved || memo.unresolved.contains path then memo.unresolved
      else memo.unresolved ++ [path]
    undefined :=
      if filling.resolution.value.isUndefined then memo.undefined ++ [path] else memo.undefined }

/-- The text put in place of a hole at a position, and the memory after it. -/
def substitute (registry : Registry) (policy : Policy) (values : Fields Value) (memo : Memo)
    (position : Nat) (body : List Char) : Outcome (String × Memo) :=
  match Fields.get? memo.replacements (String.ofList (Token.holeSource body)) with
  | some replacement => .ok (replacement, memo)
  | none => do
    let filling ← Filling.ofHole registry values position body
    return (filling.replacement policy, memo.record policy filling)

/-- The text that tokens from a position on become, and the memory after them. -/
def substituteAll (registry : Registry) (policy : Policy) (values : Fields Value) :
    (memo : Memo) → (position : Nat) → List Token → Outcome (List Char × Memo)
  | memo, _, [] => .ok ([], memo)
  | memo, position, .char c :: rest => do
    let (output, last) ← substituteAll registry policy values memo (position + 1) rest
    return (c :: output, last)
  | memo, position, .hole body :: rest => do
    let (replacement, next) ← memo.substitute registry policy values position body
    let (output, last) ←
      substituteAll registry policy values next (position + body.length + 4) rest
    return (replacement.toList ++ output, last)

end Memo

/-- A text with its references resolved among values. -/
def resolveText (registry : Registry) (policy : Policy) (values : Fields Value) (text : String) :
    Outcome Resolution := do
  let (output, memo) ←
    Memo.substituteAll registry policy values .empty 0 (Token.tokens text.toList)
  if policy = .raise ∧ memo.undefined ≠ [] then
    .error (.unresolved memo.undefined.eraseDups text)
  else
    return {
      value := .text (String.ofList output)
      resolved := memo.unresolved.isEmpty
      diagnostics := memo.diagnostics
      unresolvedPaths := memo.unresolved }

end Stencil
