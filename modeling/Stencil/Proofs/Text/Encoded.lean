import Stencil.Proofs.Text.Utf8
import Stencil.Text.Base64
import Stencil.Text.Percent

/-!
# Bytes as text and back

Percent encoded text consists of unreserved characters and escapes (`isPercentText_percentEncode`),
and reading it yields the bytes of what was encoded (`percentBytes?_percentEncode`). Text in base 64
consists of whole groups of digits, the last one filled up with equal signs
(`isPaddedBase64_base64Encode`), and reading it yields the bytes it was made of
(`base64Decode?_base64Encode`).
-/

namespace Stencil.Text

section Percent

/-- Unreserved characters and escapes, each a percent sign and two hexadecimal digits. -/
inductive IsPercentText : List Char → Prop
  | nil : IsPercentText []
  | plain {c : Char} {rest : List Char} (unreserved : isUnreserved c = true)
      (behind : IsPercentText rest) : IsPercentText (c :: rest)
  | escape {high low : Char} {rest : List Char} (first : (hexValue? high).isSome = true)
      (second : (hexValue? low).isSome = true) (behind : IsPercentText rest) :
      IsPercentText ('%' :: high :: low :: rest)

/-- A hexadecimal digit is read as its value. -/
theorem hexValue?_hexDigit : ∀ n < 16, hexValue? (hexDigit n) = some n := by
  decide

/-- The first digit of a byte is read as its upper half. -/
theorem hexValue?_high (byte : UInt8) :
    hexValue? (hexDigit (byte.toNat / 16)) = some (byte.toNat / 16) :=
  hexValue?_hexDigit _ (Nat.div_lt_of_lt_mul byte.toNat_lt)

/-- The second digit of a byte is read as its lower half. -/
theorem hexValue?_low (byte : UInt8) :
    hexValue? (hexDigit (byte.toNat % 16)) = some (byte.toNat % 16) :=
  hexValue?_hexDigit _ (Nat.mod_lt _ (Nat.succ_pos 15))

variable {c : Char} {rest : List Char}

/-- An unreserved character is no percent sign. -/
theorem ne_percent_of_isUnreserved (unreserved : isUnreserved c = true) : c ≠ '%' := by
  rintro rfl
  exact absurd unreserved (by decide)

/-- An unreserved character is one of the first 128. -/
theorem ascii_of_isUnreserved (unreserved : isUnreserved c = true) : c.toNat < 0x80 := by
  rw [isUnreserved, Bool.or_eq_true] at unreserved
  obtain alphanum | mark := unreserved
  · have below (last : Char) (ascii : last.toNat < 0x80) (atMost : c ≤ last) : c.toNat < 0x80 :=
      Nat.lt_of_le_of_lt (UInt32.le_iff_toNat_le.mp atMost) ascii
    obtain (capital | small) | digit :=
      ((Bool.or_eq_true _ _).mp alphanum).imp_left (Bool.or_eq_true _ _).mp
    · exact below 'Z' (by decide) (of_decide_eq_true capital).2
    · exact below 'z' (by decide) (of_decide_eq_true ((Bool.and_eq_true _ _).mp small).2)
    · exact below '9' (by decide) (of_decide_eq_true ((Bool.and_eq_true _ _).mp digit).2)
  · have all : "-_.!~*'()".toList.all (fun mark => decide (mark.toNat < 0x80)) = true := rfl
    exact of_decide_eq_true (List.all_eq_true.mp all c (List.contains_iff_mem.mp mark))

/-- A character that stands for itself is its only byte. -/
theorem utf8EncodeChar_of_isUnreserved (unreserved : isUnreserved c = true) :
    String.utf8EncodeChar c = [UInt8.ofNat c.toNat] :=
  if_pos (Nat.le_of_lt_succ (ascii_of_isUnreserved unreserved))

/-- Percent-encoded bytes keep a text within the alphabet. -/
theorem isPercentText_percentBytes (bytes : List UInt8) (behind : IsPercentText rest) :
    IsPercentText (bytes.flatMap percentByte ++ rest) := by
  induction bytes with
  | nil => exact behind
  | cons byte others ih =>
    exact .escape (Option.isSome_of_eq_some (hexValue?_high byte))
      (Option.isSome_of_eq_some (hexValue?_low byte)) ih

/-- A percent-encoded text is within the alphabet. -/
theorem isPercentText_percentEncode (text : List Char) : IsPercentText (percentEncode text) := by
  induction text with
  | nil => exact .nil
  | cons c rest ih =>
    rw [percentEncode, List.flatMap_cons, percentChar]
    split_ifs with unreserved
    · exact .plain unreserved ih
    · exact isPercentText_percentBytes _ ih

/-- An unreserved character is read as its byte. -/
theorem percentBytes?_plain (unreserved : isUnreserved c = true) :
    percentBytes? (c :: rest) = (percentBytes? rest).map (UInt8.ofNat c.toNat :: ·) := by
  have notEscape : ∀ high low others, c = '%' → rest = high :: low :: others → False :=
    fun _ _ _ escape _ => ne_percent_of_isUnreserved unreserved escape
  rw [percentBytes?.eq_3 _ _ notEscape, if_pos unreserved]
  cases percentBytes? rest <;> rfl

/-- A percent-encoded byte is read back. -/
theorem percentBytes?_percentByte (byte : UInt8) :
    percentBytes? (percentByte byte ++ rest) = (percentBytes? rest).map (byte :: ·) := by
  have whole : byte.toNat / 16 * 16 + byte.toNat % 16 = byte.toNat := Nat.div_add_mod' _ _
  rw [percentByte, List.cons_append, List.cons_append, List.cons_append, List.nil_append,
    percentBytes?, hexValue?_high, hexValue?_low]
  simp only [Option.bind_eq_bind, Option.bind_some, whole, UInt8.ofNat_toNat]
  cases percentBytes? rest <;> rfl

/-- Percent-encoded bytes are read back. -/
theorem percentBytes?_flatMap (bytes : List UInt8) :
    percentBytes? (bytes.flatMap percentByte ++ rest) = (percentBytes? rest).map (bytes ++ ·) := by
  induction bytes with
  | nil => exact Option.map_id'.symm
  | cons byte others ih =>
    rw [List.flatMap_cons, List.append_assoc, percentBytes?_percentByte, ih, Option.map_map]
    rfl

/-- Percent encoded text stands for the bytes of what was encoded. -/
theorem percentBytes?_percentEncode (text : List Char) :
    percentBytes? (percentEncode text) = some (utf8Bytes text) := by
  induction text with
  | nil => rfl
  | cons c rest ih =>
    have behind : percentEncode (c :: rest) = percentChar c ++ percentEncode rest := rfl
    rw [behind, utf8Bytes, List.flatMap_cons, percentChar]
    split_ifs with unreserved
    · rw [List.singleton_append, percentBytes?_plain unreserved, ih,
        utf8EncodeChar_of_isUnreserved unreserved]
      rfl
    · rw [percentBytes?_flatMap, ih]
      rfl

end Percent

section Base64

/-- Groups of four digits of base 64; in the last one the digits may be two or three, with equal
signs behind them, if the bits that complete no byte are zero. -/
inductive IsPaddedBase64 : List Char → Prop
  | nil : IsPaddedBase64 []
  | two (a : Fin 64) (b : Fin 4) :
      IsPaddedBase64 [base64Digit a, base64Digit (b * 16), '=', '=']
  | three (a b : Fin 64) (c : Fin 16) :
      IsPaddedBase64 [base64Digit a, base64Digit b, base64Digit (c * 4), '=']
  | four (a b c d : Fin 64) {rest : List Char} (behind : IsPaddedBase64 rest) :
      IsPaddedBase64 (base64Digit a :: base64Digit b :: base64Digit c :: base64Digit d :: rest)

/-- A base64 digit is read as its value. -/
theorem base64Value?_base64Digit : ∀ n < 64, base64Value? (base64Digit n) = some n := by
  decide +kernel

/-- The equal sign is no digit. -/
theorem base64Digit_ne_pad (n : Nat) (small : n < 64) : base64Digit n ≠ '=' := by
  intro pad
  have value := base64Value?_base64Digit n small
  rw [pad] at value
  exact Option.some_ne_none n value.symm

/-- An encoded text is padded base64. -/
theorem isPaddedBase64_base64Encode (bytes : List UInt8) :
    IsPaddedBase64 (base64Encode bytes) := by
  fun_induction base64Encode bytes with
  | case1 => exact .nil
  | case2 a =>
    have := a.toNat_lt
    exact .two ⟨a.toNat / 4, by omega⟩ ⟨a.toNat % 4, by omega⟩
  | case3 a b =>
    have := a.toNat_lt
    have := b.toNat_lt
    exact .three ⟨a.toNat / 4, by omega⟩ ⟨a.toNat % 4 * 16 + b.toNat / 16, by omega⟩
      ⟨b.toNat % 16, by omega⟩
  | case4 a b c rest ih =>
    have := a.toNat_lt
    have := b.toNat_lt
    have := c.toNat_lt
    exact .four ⟨a.toNat / 4, by omega⟩ ⟨a.toNat % 4 * 16 + b.toNat / 16, by omega⟩
      ⟨b.toNat % 16 * 4 + c.toNat / 64, by omega⟩ ⟨c.toNat % 64, by omega⟩ ih

variable {place next before pads value : Nat} {rest : List Char}

/-- The first digit of a group completes no byte. -/
theorem base64DecodeAt?_first (small : value < 64) :
    base64DecodeAt? 0 before pads (base64Digit value :: rest) =
      base64DecodeAt? 1 value 0 rest := by
  rw [base64DecodeAt?, if_neg (base64Digit_ne_pad value small),
    base64Value?_base64Digit value small]
  rfl

/-- Every later digit of a group completes a byte. -/
theorem base64DecodeAt?_later {byte : UInt8} (small : value < 64) (later : 0 < place)
    (goes : (place + 1) % 4 = next) (completes : base64Byte place before value = byte) :
    base64DecodeAt? place before pads (base64Digit value :: rest) =
      (base64DecodeAt? next value 0 rest).map (byte :: ·) := by
  rw [base64DecodeAt?, if_neg (base64Digit_ne_pad value small),
    base64Value?_base64Digit value small, ← completes, ← goes]
  exact if_neg (Nat.ne_of_gt later)

/-- The first byte of a group is read back from its two digits. -/
theorem base64Byte_one (byte : UInt8) (high : before = byte.toNat / 4)
    (low : value / 16 = byte.toNat % 4) : base64Byte 1 before value = byte := by
  have whole : before * 4 + value / 16 = byte.toNat := by omega
  rw [base64Byte, if_pos rfl, whole, UInt8.ofNat_toNat]

/-- The second byte of a group is read back from its two digits. -/
theorem base64Byte_two (byte : UInt8) (high : before % 16 = byte.toNat / 16)
    (low : value / 4 = byte.toNat % 16) : base64Byte 2 before value = byte := by
  have whole : before % 16 * 16 + value / 4 = byte.toNat := by omega
  rw [base64Byte, if_neg (Nat.succ_ne_self 1), if_pos rfl, whole, UInt8.ofNat_toNat]

/-- The third byte of a group is read back from its two digits. -/
theorem base64Byte_three (byte : UInt8) (high : before % 4 = byte.toNat / 64)
    (low : value = byte.toNat % 64) : base64Byte 3 before value = byte := by
  have whole : before % 4 * 64 + value = byte.toNat := by omega
  rw [base64Byte, if_neg (by decide), if_neg (Nat.succ_ne_self 2), whole, UInt8.ofNat_toNat]

/-- Reading starts a group afresh, whatever digit came before it. -/
theorem base64DecodeAt?_base64Encode (bytes : List UInt8) (before pads : Nat) :
    base64DecodeAt? 0 before pads (base64Encode bytes) = some bytes := by
  fun_induction base64Encode bytes generalizing before pads with
  | case1 => rfl
  | case2 a =>
    have := a.toNat_lt
    rw [base64DecodeAt?_first (by omega),
      base64DecodeAt?_later (by omega) (by omega) rfl (base64Byte_one a rfl (by omega))]
    rfl
  | case3 a b =>
    have := a.toNat_lt
    have := b.toNat_lt
    rw [base64DecodeAt?_first (by omega),
      base64DecodeAt?_later (by omega) (by omega) rfl (base64Byte_one a rfl (by omega)),
      base64DecodeAt?_later (by omega) (by omega) rfl (base64Byte_two b (by omega) (by omega))]
    rfl
  | case4 a b c rest ih =>
    have := a.toNat_lt
    have := b.toNat_lt
    have := c.toNat_lt
    rw [base64DecodeAt?_first (by omega),
      base64DecodeAt?_later (by omega) (by omega) rfl (base64Byte_one a rfl (by omega)),
      base64DecodeAt?_later (by omega) (by omega) rfl (base64Byte_two b (by omega) (by omega)),
      base64DecodeAt?_later (by omega) (by omega) rfl (base64Byte_three c (by omega) rfl), ih]
    rfl

/-- Text in base 64 stands for the bytes it was made of. -/
theorem base64Decode?_base64Encode (bytes : List UInt8) :
    base64Decode? (base64Encode bytes) = some bytes :=
  base64DecodeAt?_base64Encode bytes 0 0

end Base64

end Stencil.Text
