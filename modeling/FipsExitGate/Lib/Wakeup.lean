import Mathlib.Order.Basic

/-!
# Waking sleepers by closing a channel

A value changes, and those who wait for a change sleep on a channel.  To wake them the channel is
closed and a new one put in its place.  Whoever announces the changes may be behind: between a
change and the broadcast for it, a broadcast is owed.

A sleeper that takes the channel first and reads the value afterwards cannot miss a change.  If the
value is no longer the one it has read, then the change came after it took the channel; so its
channel has been closed since, or the broadcast is still owed.  This is `Covered`, and the lemmas
are the things that can happen to it.  A sleeper that reads first has nothing of the kind: the
broadcast may fall between its two steps.
-/

namespace Wakeup

universe u

variable {α : Type u}

/-- The channels, numbered in the order in which they are made; the last one is open. -/
structure Bell where
  current : Nat
  deriving DecidableEq

namespace Bell

/-- The channel that the next broadcast closes. -/
def wait (bell : Bell) : Nat := bell.current

/-- Close the channel and make a new one. -/
def broadcast (bell : Bell) : Bell := ⟨bell.current + 1⟩

def closed (bell : Bell) (channel : Nat) : Bool := decide (channel < bell.current)

theorem closed_broadcast {bell : Bell} {channel : Nat} (made : channel ≤ bell.current) :
    bell.broadcast.closed channel = true :=
  decide_eq_true (Nat.lt_succ_of_le made)

end Bell

/-- **A sleeper that will hear of every change**: on a channel that is still open, it has seen the
value as it is, or a broadcast is owed. -/
structure Covered (bell : Bell) (owed : Prop) (value : α) (channel : Nat) (seen : α) : Prop where
  made : channel ≤ bell.current
  told : seen = value ∨ bell.closed channel = true ∨ owed

namespace Covered

variable {bell : Bell} {owed owed' : Prop} {value value' seen : α} {channel : Nat}

/-- A read after the channel was taken. -/
theorem read (made : channel ≤ bell.current) : Covered bell owed value channel value :=
  ⟨made, .inl rfl⟩

/-- A broadcast that is owed excuses everything before it. -/
theorem change (h : Covered bell owed value channel seen) (due : owed') :
    Covered bell owed' value' channel seen :=
  ⟨h.made, .inr (.inr due)⟩

/-- A broadcast settles what was owed. -/
theorem broadcast (h : Covered bell owed value channel seen) :
    Covered bell.broadcast owed' value channel seen :=
  ⟨Nat.le_succ_of_le h.made, .inr (.inl (Bell.closed_broadcast h.made))⟩

end Covered

end Wakeup
