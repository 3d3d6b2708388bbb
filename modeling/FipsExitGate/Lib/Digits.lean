import Mathlib.Data.List.Induction
import Mathlib.Data.Nat.Digits.Defs
import Mathlib.Tactic.Ring

/-!
# Digits, most significant first

The number a list of digits stands for, read from the left.  A list of given length
whose digits are below the base is determined by its number, which is how two
groupings of one string of bits are compared: the digits differ, the number does not.
-/

namespace Digits

/-- The number with the digits `ds` in base `b`, most significant first. -/
def value (b : Nat) (ds : List Nat) : Nat :=
  ds.foldl (fun n d => n * b + d) 0

@[simp] theorem value_nil (b : Nat) : value b [] = 0 := rfl

theorem value_concat (b : Nat) (ds : List Nat) (d : Nat) :
    value b (ds ++ [d]) = value b ds * b + d := by
  simp [value]

/-- The library's reading, from the least significant digit. -/
theorem value_eq_ofDigits (b : Nat) (ds : List Nat) : value b ds = Nat.ofDigits b ds.reverse := by
  induction ds using List.reverseRecOn with
  | nil => rfl
  | append_singleton ds d ih =>
      rw [value_concat, ih, List.reverse_concat, Nat.ofDigits_cons]
      ring

/-- **Digits are determined by their number and how many they are.** -/
theorem eq_of_value_eq {b : Nat} (base : 1 < b) {ds es : List Nat} (length : ds.length = es.length)
    (small : ∀ d ∈ ds, d < b) (small' : ∀ d ∈ es, d < b) (same : value b ds = value b es) :
    ds = es := by
  rw [value_eq_ofDigits, value_eq_ofDigits] at same
  refine List.reverse_inj.mp (Nat.ofDigits_inj_of_len_eq base ?_ ?_ ?_ same)
  · simpa using length
  · simpa using small
  · simpa using small'

theorem value_lt {b : Nat} {ds : List Nat} (small : ∀ d ∈ ds, d < b) :
    value b ds < b ^ ds.length := by
  induction ds using List.reverseRecOn with
  | nil => simp
  | append_singleton ds d ih =>
      have isSmall : d < b := small d (by simp)
      have below := ih fun d' member => small d' (by simp [member])
      rw [value_concat, List.length_append, List.length_singleton, pow_succ]
      calc value b ds * b + d < value b ds * b + b := by omega
        _ = (value b ds + 1) * b := by ring
        _ ≤ b ^ ds.length * b := Nat.mul_le_mul_right b below

/-- A quotient and a remainder are determined by the number they make. -/
theorem eq_of_mul_add_eq {n m r s t : Nat} (isRemainder : r < t) (isRemainder' : s < t)
    (same : n * t + r = m * t + s) : n = m ∧ r = s := by
  have positive : 0 < t := by omega
  have remainders : r = s := by
    have mods := congrArg (· % t) same
    simpa [Nat.mod_eq_of_lt isRemainder, Nat.mod_eq_of_lt isRemainder'] using mods
  subst remainders
  exact ⟨Nat.eq_of_mul_eq_mul_right positive (by omega), rfl⟩

end Digits
