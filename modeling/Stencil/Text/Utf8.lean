import Stencil.Text.Digit

/-!
# UTF-8

Bytes of a text and the text of bytes. Reading names the first byte, or run of bytes, that
starts no character, and says why.
-/

namespace Stencil.Text

/-- The bytes of a text. -/
def utf8Bytes (text : List Char) : List UInt8 :=
  text.flatMap String.utf8EncodeChar

/-- Why bytes are no UTF-8. -/
inductive Utf8Cause
  | badStart
  | badContinuation
  | cutShort
  | notText
  deriving Repr, DecidableEq

/-- The first fault of a byte sequence: where it is, how many bytes it spans, its first byte
and its cause. -/
structure Utf8Error where
  position : Nat
  span : Nat
  byte : UInt8
  cause : Utf8Cause
  deriving Repr, DecidableEq

/-- The message of the reason why bytes spell no text. -/
def Utf8Cause.message : Utf8Cause → String
  | .badStart => "invalid start byte"
  | .badContinuation => "invalid continuation byte"
  | .cutShort => "unexpected end of data"
  | .notText => "invalid utf-8"

/-- The message of an error: the bytes, where they stand and what is wrong with them. -/
def Utf8Error.message (fault : Utf8Error) : String :=
  let place :=
    if fault.span = 1 then
      s!"byte 0x{String.ofList (hexText 2 fault.byte.toNat)} in position {fault.position}"
    else s!"bytes in position {fault.position}-{fault.position + fault.span - 1}"
  s!"'utf-8' codec can't decode {place}: {fault.cause.message}"

/-- Whether a byte goes on with a character that another began. -/
def isContinuation (byte : UInt8) : Bool :=
  0x80 ≤ byte && byte ≤ 0xBF

/-- Whether `second` may follow the first byte of a character of three or four bytes: the
shortest form is required, and surrogates and codes past the last plane are excluded. -/
def mayFollow (first second : UInt8) : Bool :=
  isContinuation second
    && !(first == 0xE0 && second < 0xA0) && !(first == 0xED && second > 0x9F)
    && !(first == 0xF0 && second < 0x90) && !(first == 0xF4 && second > 0x8F)

/-- The low six bits of a continuation byte. -/
def payload (byte : UInt8) : Nat :=
  byte.toNat % 64

/-- The text of bytes that start at `position`. -/
def utf8TextAt : (position : Nat) → List UInt8 → Except Utf8Error (List Char)
  | _, [] => .ok []
  | position, first :: rest =>
    if first < 0x80 then do
      return Char.ofNat first.toNat :: (← utf8TextAt (position + 1) rest)
    else if first < 0xC2 || first > 0xF4 then .error ⟨position, 1, first, .badStart⟩
    else match rest with
      | [] => .error ⟨position, 1, first, .cutShort⟩
      | second :: rest =>
        if !mayFollow first second then .error ⟨position, 1, first, .badContinuation⟩
        else if first < 0xE0 then do
          let code := first.toNat % 32 * 64 + payload second
          return Char.ofNat code :: (← utf8TextAt (position + 2) rest)
        else match rest with
          | [] => .error ⟨position, 2, first, .cutShort⟩
          | third :: rest =>
            if !isContinuation third then .error ⟨position, 2, first, .badContinuation⟩
            else if first < 0xF0 then do
              let code := (first.toNat % 16 * 64 + payload second) * 64 + payload third
              return Char.ofNat code :: (← utf8TextAt (position + 3) rest)
            else match rest with
              | [] => .error ⟨position, 3, first, .cutShort⟩
              | fourth :: rest =>
                if !isContinuation fourth then .error ⟨position, 3, first, .badContinuation⟩
                else do
                  let code :=
                    ((first.toNat % 8 * 64 + payload second) * 64 + payload third) * 64
                      + payload fourth
                  return Char.ofNat code :: (← utf8TextAt (position + 4) rest)

/-- The text that bytes spell, or the first error. -/
def utf8Text (bytes : List UInt8) : Except Utf8Error (List Char) :=
  utf8TextAt 0 bytes

end Stencil.Text
