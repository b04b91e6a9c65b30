import Mathlib.Tactic.SplitIfs
import Stencil.Proofs.Outcome
import Stencil.Text.Utf8

/-!
# Text as bytes and back

The bytes of a character are read as that character, one to four of them (`utf8TextAt_encodeChar`).
So the bytes of a text are read as the text (`utf8Text_utf8Bytes`).
-/

namespace Stencil.Text

/-- A byte continues a character if and only if it is between 0x80 and 0xBF. -/
theorem isContinuation_iff {byte : UInt8} :
    isContinuation byte = true ↔ 0x80 ≤ byte.toNat ∧ byte.toNat ≤ 0xBF := by
  rw [isContinuation, Bool.and_eq_true, decide_eq_true_iff, decide_eq_true_iff,
    UInt8.le_iff_toNat_le, UInt8.le_iff_toNat_le]
  rfl

/-- Which bytes may follow the first one: only four first bytes narrow the range down. -/
theorem mayFollow_of_bounds {first second : UInt8} (low : 0x80 ≤ second.toNat)
    (high : second.toNat ≤ 0xBF) (shortest : first.toNat = 0xE0 → 0xA0 ≤ second.toNat)
    (noSurrogate : first.toNat = 0xED → second.toNat ≤ 0x9F)
    (shortestOfFour : first.toNat = 0xF0 → 0x90 ≤ second.toNat)
    (lastPlane : first.toNat = 0xF4 → second.toNat ≤ 0x8F) : mayFollow first second = true := by
  have inner := isContinuation_iff.mpr ⟨low, high⟩
  simp only [mayFollow, inner, Bool.and_eq_true, Bool.not_eq_true', Bool.and_eq_false_iff,
    beq_eq_false_iff_ne, decide_eq_false_iff_not, UInt8.not_lt, gt_iff_lt, UInt8.le_iff_toNat_le,
    ne_eq, ← UInt8.toNat_inj, true_and]
  refine ⟨⟨⟨?_, ?_⟩, ?_⟩, ?_⟩
  · exact (Decidable.em _).symm.imp id shortest
  · exact (Decidable.em _).symm.imp id noSurrogate
  · exact (Decidable.em _).symm.imp id shortestOfFour
  · exact (Decidable.em _).symm.imp id lastPlane

section Reading

variable {first second third fourth : UInt8}

/-- A byte below 0x80 is a character of its own. -/
theorem utf8TextAt_one (ascii : first.toNat < 0x80) (position : Nat) (rest : List UInt8) :
    utf8TextAt position (first :: rest) =
      (do return Char.ofNat first.toNat :: (← utf8TextAt (position + 1) rest)) := by
  have small : first < 0x80 := UInt8.lt_iff_toNat_lt.mpr ascii
  rw [utf8TextAt.eq_def]
  dsimp only
  rw [if_pos small]

/-- A first byte that begins a character of several bytes. -/
theorem utf8TextAt_lead (low : 0xC2 ≤ first.toNat) (high : first.toNat ≤ 0xF4)
    (follows : mayFollow first second = true) (position : Nat) (rest : List UInt8) :
    utf8TextAt position (first :: second :: rest) =
      if first.toNat < 0xE0 then do
        return Char.ofNat (first.toNat % 32 * 64 + payload second) ::
          (← utf8TextAt (position + 2) rest)
      else match rest with
        | [] => .error ⟨position, 2, first, .cutShort⟩
        | third :: rest =>
          if !isContinuation third then .error ⟨position, 2, first, .badContinuation⟩
          else if first.toNat < 0xF0 then do
            return Char.ofNat ((first.toNat % 16 * 64 + payload second) * 64 + payload third) ::
              (← utf8TextAt (position + 3) rest)
          else match rest with
            | [] => .error ⟨position, 3, first, .cutShort⟩
            | fourth :: rest =>
              if !isContinuation fourth then .error ⟨position, 3, first, .badContinuation⟩
              else do
                return Char.ofNat (((first.toNat % 8 * 64 + payload second) * 64
                  + payload third) * 64 + payload fourth) ::
                    (← utf8TextAt (position + 4) rest) := by
  have notAscii : ¬ first < 0x80 := by
    rw [UInt8.lt_iff_toNat_lt]
    exact Nat.not_lt.mpr (Nat.le_trans (by decide) low)
  have leads : (decide (first < 0xC2) || decide (first > 0xF4)) = false := by
    rw [Bool.or_eq_false_iff, decide_eq_false_iff_not, decide_eq_false_iff_not, UInt8.not_lt,
      gt_iff_lt, UInt8.not_lt, UInt8.le_iff_toNat_le, UInt8.le_iff_toNat_le]
    exact ⟨low, high⟩
  rw [utf8TextAt.eq_def]
  dsimp only
  rw [if_neg notAscii, if_neg (Bool.not_eq_true _ ▸ leads), follows]
  simp only [Bool.not_true, Bool.false_eq_true, if_false, UInt8.lt_iff_toNat_lt]
  rfl

end Reading

/-- A byte with the leading bits of a continuation continues a character. -/
theorem isContinuation_ofNat (n : Nat) : isContinuation (UInt8.ofNat (n % 64 + 128)) = true := by
  rw [isContinuation_iff, UInt8.toNat_ofNat_of_lt' (show _ < 256 by omega)]
  omega

/-- A continuation carries six bits. -/
theorem payload_ofNat (n : Nat) : payload (UInt8.ofNat (n % 64 + 128)) = n % 64 := by
  rw [payload, UInt8.toNat_ofNat_of_lt' (show _ < 256 by omega)]
  omega

section Codes

variable {n : Nat}

/-- Two bytes are read as the character they encode. -/
theorem utf8TextAt_two (low : 0x80 ≤ n) (high : n ≤ 0x7FF) (position : Nat) (rest : List UInt8) :
    utf8TextAt position (UInt8.ofNat (n / 64 % 32 + 192) :: UInt8.ofNat (n % 64 + 128) :: rest) =
      (do return Char.ofNat n :: (← utf8TextAt (position + 2) rest)) := by
  have first := UInt8.toNat_ofNat_of_lt' (show n / 64 % 32 + 192 < 256 by omega)
  have second := UInt8.toNat_ofNat_of_lt' (show n % 64 + 128 < 256 by omega)
  have code : (n / 64 % 32 + 192) % 32 * 64 + n % 64 = n := by omega
  rw [utf8TextAt_lead (by omega) (by omega) (mayFollow_of_bounds (by omega) (by omega) (by omega)
    (by omega) (by omega) (by omega)), if_pos (by omega), payload_ofNat, first, code]

/-- Three bytes are read as the character they encode. -/
theorem utf8TextAt_three (low : 0x800 ≤ n) (high : n ≤ 0xFFFF)
    (noSurrogate : n < 0xD800 ∨ 0xDFFF < n) (position : Nat) (rest : List UInt8) :
    utf8TextAt position (UInt8.ofNat (n / 4096 % 16 + 224) :: UInt8.ofNat (n / 64 % 64 + 128) ::
        UInt8.ofNat (n % 64 + 128) :: rest) =
      (do return Char.ofNat n :: (← utf8TextAt (position + 3) rest)) := by
  have first := UInt8.toNat_ofNat_of_lt' (show n / 4096 % 16 + 224 < 256 by omega)
  have second := UInt8.toNat_ofNat_of_lt' (show n / 64 % 64 + 128 < 256 by omega)
  have code : ((n / 4096 % 16 + 224) % 16 * 64 + n / 64 % 64) * 64 + n % 64 = n := by omega
  rw [utf8TextAt_lead (by omega) (by omega) (mayFollow_of_bounds (by omega) (by omega) (by omega)
    (by omega) (by omega) (by omega)), if_neg (by omega)]
  dsimp only
  rw [isContinuation_ofNat, if_neg (by decide), if_pos (by omega), payload_ofNat, payload_ofNat,
    first, code]

/-- Four bytes are read as the character they encode. -/
theorem utf8TextAt_four (low : 0x10000 ≤ n) (high : n < 0x110000) (position : Nat)
    (rest : List UInt8) :
    utf8TextAt position (UInt8.ofNat (n / 262144 % 8 + 240) ::
        UInt8.ofNat (n / 4096 % 64 + 128) :: UInt8.ofNat (n / 64 % 64 + 128) ::
        UInt8.ofNat (n % 64 + 128) :: rest) =
      (do return Char.ofNat n :: (← utf8TextAt (position + 4) rest)) := by
  have first := UInt8.toNat_ofNat_of_lt' (show n / 262144 % 8 + 240 < 256 by omega)
  have second := UInt8.toNat_ofNat_of_lt' (show n / 4096 % 64 + 128 < 256 by omega)
  have code : (((n / 262144 % 8 + 240) % 8 * 64 + n / 4096 % 64) * 64 + n / 64 % 64) * 64
      + n % 64 = n := by omega
  rw [utf8TextAt_lead (by omega) (by omega) (mayFollow_of_bounds (by omega) (by omega) (by omega)
    (by omega) (by omega) (by omega)), if_neg (by omega)]
  dsimp only
  rw [isContinuation_ofNat, if_neg (by decide), if_neg (by omega), isContinuation_ofNat,
    if_neg (by decide), payload_ofNat, payload_ofNat, payload_ofNat, first, code]

end Codes

/-- The bytes of a character are read as the character, whatever comes behind them. -/
theorem utf8TextAt_encodeChar (c : Char) (position : Nat) (rest : List UInt8) :
    utf8TextAt position (String.utf8EncodeChar c ++ rest) =
      (do return c :: (← utf8TextAt (position + (String.utf8EncodeChar c).length) rest)) := by
  -- The code points of characters leave out the surrogates and end with the last plane.
  have valid : c.toNat < 0xD800 ∨ 0xDFFF < c.toNat ∧ c.toNat < 0x110000 := c.valid
  have named : Char.ofNat c.toNat = c := Char.ofNat_toNat c
  rw [String.utf8EncodeChar, show c.val.toNat = c.toNat from rfl]
  generalize c.toNat = n at valid named ⊢
  split_ifs with one two three
  · have first := UInt8.toNat_ofNat_of_lt' (show n < 256 by omega)
    rw [List.singleton_append, utf8TextAt_one (by omega), first, named]
    rfl
  · rw [← named]
    exact utf8TextAt_two (by omega) two position rest
  · rw [← named]
    exact utf8TextAt_three (by omega) three (by omega) position rest
  · rw [← named]
    exact utf8TextAt_four (by omega) (by omega) position rest

/-- The encoding of a text is read back. -/
theorem utf8TextAt_utf8Bytes (text : List Char) (position : Nat) :
    utf8TextAt position (utf8Bytes text) = .ok text := by
  induction text generalizing position with
  | nil => rw [utf8Bytes, List.flatMap_nil, utf8TextAt]
  | cons c rest ih =>
    have behind : utf8Bytes (c :: rest) = String.utf8EncodeChar c ++ utf8Bytes rest := rfl
    rw [behind, utf8TextAt_encodeChar, ih]
    rfl

/-- The bytes of a text are read as the text. -/
@[simp] theorem utf8Text_utf8Bytes (text : List Char) : utf8Text (utf8Bytes text) = .ok text :=
  utf8TextAt_utf8Bytes text 0

end Stencil.Text
