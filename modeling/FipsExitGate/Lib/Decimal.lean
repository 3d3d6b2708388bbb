import FipsExitGate.Lib.Digits

/-!
# Decimal numbers as text

Integers written in ASCII digits, with a sign if they are negative, and read back.  The
reader also takes a plus sign and leading zeros, so only one direction is a round trip.
-/

namespace Decimal

def isDigit (b : UInt8) : Bool := decide (0x30 ≤ b) && decide (b ≤ 0x39)

/-- A natural number, without leading zeros. -/
def formatNat (n : Nat) : List UInt8 :=
  (Nat.toDigits 10 n).map fun c => UInt8.ofNat c.toNat

/-- An integer, with a minus sign if it is negative. -/
def formatInt : Int → List UInt8
  | .ofNat n => formatNat n
  | .negSucc n => 0x2d :: formatNat (n + 1)

/-- One digit or more. -/
def parseNat (s : List UInt8) : Option Nat :=
  if s ≠ [] ∧ s.all isDigit then some (Digits.value 10 (s.map fun b => b.toNat - 0x30)) else none

/-- Digits after an optional sign. -/
def parseInt (s : List UInt8) : Option Int :=
  match s with
  | 0x2b :: digits => (parseNat digits).map fun n => (n : Int)
  | 0x2d :: digits => (parseNat digits).map fun n => -(n : Int)
  | digits => (parseNat digits).map fun n => (n : Int)

/-- The characters of a number are digits. -/
theorem toNat_of_mem_toDigits {n : Nat} {c : Char} (member : c ∈ Nat.toDigits 10 n) :
    0x30 ≤ c.toNat ∧ c.toNat ≤ 0x39 := by
  have digit := Nat.isDigit_of_mem_toDigits (by decide) (by decide) member
  simpa [Char.isDigit, UInt32.le_iff_toNat_le] using digit

theorem toNat_digit {n : Nat} {c : Char} (member : c ∈ Nat.toDigits 10 n) :
    (UInt8.ofNat c.toNat).toNat = c.toNat := by
  have bounds := toNat_of_mem_toDigits member
  exact UInt8.toNat_ofNat_of_lt' (by change _ < 256; omega)

theorem isDigit_of_mem_formatNat {n : Nat} {b : UInt8} (member : b ∈ formatNat n) :
    isDigit b = true := by
  obtain ⟨c, isChar, rfl⟩ := List.mem_map.mp member
  have bounds := toNat_of_mem_toDigits isChar
  simp only [isDigit, UInt8.le_iff_toNat_le, toNat_digit isChar, Bool.and_eq_true,
    decide_eq_true_eq]
  exact bounds

theorem formatNat_ne_nil (n : Nat) : formatNat n ≠ [] := by
  simp [formatNat, Nat.toDigits_ne_nil]

theorem parseNat_formatNat (n : Nat) : parseNat (formatNat n) = some n := by
  have digits : (formatNat n).all isDigit = true :=
    List.all_eq_true.mpr fun _ member => isDigit_of_mem_formatNat member
  rw [parseNat, if_pos ⟨formatNat_ne_nil n, digits⟩, Option.some.injEq]
  calc Digits.value 10 ((formatNat n).map fun b => b.toNat - 0x30)
      = Digits.value 10 ((Nat.toDigits 10 n).map fun c => c.toNat - 0x30) := by
        rw [formatNat, List.map_map]
        congr 1
        exact List.map_congr_left fun c member => by simp [toNat_digit member]
    _ = Nat.ofDigitChars 10 (Nat.toDigits 10 n) 0 := by
        simp only [Digits.value, Nat.ofDigitChars, List.foldl_map]
        congr 1
        funext m c
        rw [Nat.mul_comm]
        rfl
    _ = n := Nat.ofDigitChars_ten_toDigits

/-- **What is written is read back.** -/
theorem parseInt_formatInt (n : Int) : parseInt (formatInt n) = some n := by
  cases n with
  | ofNat n =>
      -- a number that starts with a digit has no sign
      obtain ⟨b, digits, split⟩ := List.exists_cons_of_ne_nil (formatNat_ne_nil n)
      have digit : isDigit b = true := isDigit_of_mem_formatNat (n := n) (by simp [split])
      have noPlus : b ≠ 0x2b := by rintro rfl; cases digit
      have noMinus : b ≠ 0x2d := by rintro rfl; cases digit
      have read := parseNat_formatNat n
      rw [split] at read
      rw [formatInt, split, parseInt]
      · rw [read]
        rfl
      · exact fun _ isPlus => noPlus (List.cons.inj isPlus).1
      · exact fun _ isMinus => noMinus (List.cons.inj isMinus).1
  | negSucc n =>
      rw [formatInt, parseInt, parseNat_formatNat]
      rfl

/-- The characters of an integer. -/
theorem mem_formatInt {n : Int} {b : UInt8} (member : b ∈ formatInt n) :
    b = 0x2d ∨ isDigit b = true := by
  cases n with
  | ofNat n => exact .inr (isDigit_of_mem_formatNat member)
  | negSucc n =>
      rcases List.mem_cons.mp member with minus | digit
      · exact .inl minus
      · exact .inr (isDigit_of_mem_formatNat digit)

end Decimal
