import Mathlib.Order.Basic

/-!
# Counters that may be reset

A reader samples a counter from time to time and remembers the last reading.  The
counter only grows, except that it may be reset to zero unnoticed.  `growth` is the
reader's estimate of what came in since: the difference, or the whole reading if it
is smaller than the last one.  The estimate never exceeds what really came in, over
any number of readings: it is nothing right after a reading or a reset, and from then
on it grows at most with the counter.
-/

namespace Counter

/-- What a reader takes to have come in since the reading `last`. -/
def growth (last now : Nat) : Nat :=
  if last ≤ now then now - last else now

theorem growth_of_le {last now : Nat} (le : last ≤ now) : growth last now = now - last :=
  if_pos le

@[simp] theorem growth_self (now : Nat) : growth now now = 0 := by
  simp [growth]

/-- Nothing is taken to have come in right after a reset. -/
@[simp] theorem growth_zero (last : Nat) : growth last 0 = 0 := by
  unfold growth
  split <;> omega

/-- The estimate grows at most with the counter. -/
theorem growth_add_le (last now n : Nat) : growth last (now + n) ≤ growth last now + n := by
  unfold growth
  split <;> split <;> omega

/-- It grows with the counter unless a reset counter gets up to the last reading. -/
theorem growth_add {last now n : Nat} (below : now < last → now + n < last) :
    growth last (now + n) = growth last now + n := by
  unfold growth
  split <;> split <;> omega

theorem growth_eq_zero {last now : Nat} (still : now = last ∨ now = 0) : growth last now = 0 := by
  rcases still with rfl | rfl
  · exact growth_self now
  · exact growth_zero last

end Counter
