import FipsExitGate.Lib.Inet

/-!
# Texts in a query

`QueryEscape` and `QueryUnescape` of Go's `net/url`: the letters, the digits and `-_.~` stand for
themselves, a blank is a plus, and every other byte is a percent sign and two digits.
-/

namespace QueryEscape

open Inet

/-- The bytes that stand for themselves. -/
def isUnreserved (b : UInt8) : Bool :=
  (0x61 ≤ b && b ≤ 0x7a) || (0x41 ≤ b && b ≤ 0x5a) || (0x30 ≤ b && b ≤ 0x39) ||
    b == 0x2d || b == 0x5f || b == 0x2e || b == 0x7e

/-- A hexadecimal digit in upper case. -/
def upperDigit (d : Nat) : UInt8 := UInt8.ofNat (if d < 10 then 0x30 + d else 0x37 + d)

theorem hexValue_upperDigit {d : Nat} (small : d < 16) : hexValue (upperDigit d) = some d := by
  interval_cases d <;> rfl

theorem isUnreserved_upperDigit {d : Nat} (small : d < 16) : isUnreserved (upperDigit d) = true := by
  interval_cases d <;> rfl

def escapeByte (b : UInt8) : Text :=
  if isUnreserved b then [b]
  else if b = 0x20 then [0x2b]
  else [0x25, upperDigit (b.toNat / 16), upperDigit (b.toNat % 16)]

/-- `QueryEscape`. -/
def escape (s : Text) : Text := s.flatMap escapeByte

/-- `QueryUnescape`; `none` is its error. -/
def unescape : Text → Option Text
  | [] => some []
  | b :: rest =>
      if b = 0x25 then
        match rest with
        | high :: low :: rest =>
            match hexValue high, hexValue low, unescape rest with
            | some h, some l, some s => some (UInt8.ofNat (16 * h + l) :: s)
            | _, _, _ => none
        | _ => none
      else (unescape rest).map ((if b = 0x2b then 0x20 else b) :: ·)

theorem unescape_cons {b : UInt8} (plain : b ≠ 0x25) (rest : Text) :
    unescape (b :: rest) = (unescape rest).map ((if b = 0x2b then 0x20 else b) :: ·) := by
  conv_lhs => unfold unescape
  exact if_neg plain

theorem unescape_percent (b : UInt8) {rest s : Text} (isRest : unescape rest = some s) :
    unescape (0x25 :: upperDigit (b.toNat / 16) :: upperDigit (b.toNat % 16) :: rest) =
      some (b :: s) := by
  have small := b.toNat_lt
  have whole : 16 * (b.toNat / 16) + b.toNat % 16 = b.toNat := Nat.div_add_mod _ _
  rw [unescape, if_pos rfl]
  simp only [hexValue_upperDigit (show b.toNat / 16 < 16 by omega),
    hexValue_upperDigit (show b.toNat % 16 < 16 by omega), isRest, whole, UInt8.ofNat_toNat]

/-- **What is escaped is read back.** -/
theorem unescape_escape (s : Text) : unescape (escape s) = some s := by
  induction s with
  | nil => rfl
  | cons b s ih =>
      show unescape (escapeByte b ++ escape s) = _
      unfold escapeByte
      split
      · rename_i unreserved
        have notPercent : b ≠ 0x25 := by
          rintro rfl
          cases unreserved
        have notPlus : b ≠ 0x2b := by
          rintro rfl
          cases unreserved
        rw [List.singleton_append, unescape_cons notPercent, ih, if_neg notPlus]
        rfl
      · split
        · rename_i blank
          rw [List.singleton_append, unescape_cons (by decide), ih, blank]
          rfl
        · exact unescape_percent b ih

/-- What an escaped text is made of. -/
theorem mem_escape {b : UInt8} {s : Text} (member : b ∈ escape s) :
    isUnreserved b = true ∨ b = 0x2b ∨ b = 0x25 := by
  obtain ⟨c, -, inside⟩ := List.mem_flatMap.mp member
  have small := c.toNat_lt
  unfold escapeByte at inside
  split at inside
  · rename_i unreserved
    obtain rfl := List.mem_singleton.mp inside
    exact .inl unreserved
  · split at inside
    · exact .inr (.inl (List.mem_singleton.mp inside))
    · simp only [List.mem_cons, List.not_mem_nil, or_false] at inside
      rcases inside with rfl | rfl | rfl
      · exact .inr (.inr rfl)
      · exact .inl (isUnreserved_upperDigit (by omega))
      · exact .inl (isUnreserved_upperDigit (by omega))

/-- The bytes that escaping makes no use of. -/
def isReserved (b : UInt8) : Bool := !isUnreserved b && b != 0x2b && b != 0x25

theorem not_mem_escape {b : UInt8} (reserved : isReserved b = true) (s : Text) : b ∉ escape s := by
  intro member
  rcases mem_escape member with unreserved | rfl | rfl
  · simp [isReserved, unreserved] at reserved
  · cases reserved
  · cases reserved

end QueryEscape
