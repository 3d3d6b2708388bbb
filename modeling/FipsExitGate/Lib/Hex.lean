import FipsExitGate.Lib.Inet

/-!
# Hexadecimal text

Bytes as two hexadecimal digits each: written in lower case, read in either case, as
`encoding/hex` of Go does it.
-/

namespace Hex

open Inet

/-- The two digits of a byte. -/
def digits (b : UInt8) : Text :=
  [digit (b.toNat / 16), digit (b.toNat % 16)]

/-- The digits of the bytes. -/
def encode (bytes : List UInt8) : Text :=
  bytes.flatMap digits

/-- The bytes that the digits stand for; `none` for a character that is no digit and for an
odd number of digits. -/
def decode : Text → Option (List UInt8)
  | [] => some []
  | [_] => none
  | high :: low :: rest =>
      match hexValue high, hexValue low, decode rest with
      | some h, some l, some bytes => some (UInt8.ofNat (16 * h + l) :: bytes)
      | _, _, _ => none

/-- **What is written is read back.** -/
theorem decode_encode (bytes : List UInt8) : decode (encode bytes) = some bytes := by
  induction bytes with
  | nil => rfl
  | cons b bytes ih =>
      have small := b.toNat_lt
      have high : hexValue (digit (b.toNat / 16)) = some (b.toNat / 16) :=
        hexValue_digit (by omega)
      have low : hexValue (digit (b.toNat % 16)) = some (b.toNat % 16) :=
        hexValue_digit (by omega)
      show decode (digit (b.toNat / 16) :: digit (b.toNat % 16) :: encode bytes) = _
      rw [decode, high, low, ih]
      have whole : 16 * (b.toNat / 16) + b.toNat % 16 = b.toNat := Nat.div_add_mod _ _
      simp only [whole, UInt8.ofNat_toNat]

end Hex
