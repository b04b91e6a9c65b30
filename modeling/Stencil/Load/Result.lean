import Stencil.Value.Basic

/-!
# Results of loading

A load succeeds with a value or fails with a message. Both may come with further data. A result is
made only of parts that agree: `Load.of` refuses a success without a value and a failure without a
message.
-/

namespace Stencil

/-- How a load ended. -/
inductive LoadStatus
  | success
  | failed
  deriving DecidableEq, Repr

namespace LoadStatus

/-- The ends of a load in the order in which they are listed. -/
def all : List LoadStatus :=
  [.success, .failed]

/-- The name of the status of a load. -/
def name : LoadStatus → String
  | .success => "success"
  | .failed => "failed"

/-- The end of a name that should be one. -/
def ofName (text : String) : Outcome LoadStatus :=
  match all.find? (·.name == text) with
  | some status => .ok status
  | none => .error (.notChoice text "LoadStatus")

end LoadStatus

/-- Whether there is a message and it is not empty. -/
def saysSomething (message : Option String) : Bool :=
  message.any (!·.isEmpty)

/-- The result of a load. -/
structure Load (α : Type) where
  status : LoadStatus
  value : Option α
  error : Option String
  metadata : Fields Value
  /-- A success has a value. -/
  valued : status = .success → value.isSome
  /-- A failure has a message. -/
  explained : status = .failed → saysSomething error

namespace Load

variable {α : Type}

/-- The result with the given parts, if they agree. -/
def of (status : LoadStatus) (value : Option α) (error : Option String)
    (metadata : Fields Value) : Outcome (Load α) :=
  if valued : status = .success → value.isSome then
    if explained : status = .failed → saysSomething error then
      .ok ⟨status, value, error, metadata, valued, explained⟩
    else .error .loadWithoutError
  else .error .loadWithoutValue

/-- The result of a load that succeeded. -/
def success (value : α) (metadata : Fields Value) : Load α :=
  ⟨.success, some value, none, metadata, by simp, by simp⟩

/-- The result of a load that failed; its message must not be empty. -/
def failure (error : String) (metadata : Fields Value) : Outcome (Load α) :=
  of .failed none (some error) metadata

/-- Whether a load succeeded. -/
def isSuccess (load : Load α) : Bool :=
  load.status == .success

/-- The value of a success; a failure has none. -/
def value? (load : Load α) : Option α :=
  if load.isSuccess then load.value else none

/-- A failure is no success. -/
theorem isSuccess_of_failure {error : String} {metadata : Fields Value} {load : Load α}
    (made : failure error metadata = .ok load) : load.isSuccess = false := by
  rw [failure, of] at made
  split at made
  · split at made
    · cases made
      rfl
    · cases made
  · cases made

/-- The value of a load that should be a success. -/
def unwrap (load : Load α) : Outcome α :=
  match load.value? with
  | some value => .ok value
  | none => .error (.unwrapFailed load.error)

/-- The value of a success, or a fallback. -/
def unwrapOr (load : Load α) (fallback : α) : α :=
  load.value?.getD fallback

end Load
end Stencil
