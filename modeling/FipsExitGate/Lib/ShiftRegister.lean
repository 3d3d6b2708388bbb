import Mathlib.Data.List.Basic

/-!
# Linear shift registers

A register of `w` bits is driven by a list of inputs.  If a step is linear in exclusive or,
the state reached is the sum of what the initial state alone leads to and what the inputs
alone lead to.
-/

namespace ShiftRegister

variable {w : Nat} {step : BitVec w → BitVec w → BitVec w}

/-- A step that is linear in the state and the input together. -/
def Linear (step : BitVec w → BitVec w → BitVec w) : Prop :=
  ∀ s t v x, step (s ^^^ t) (v ^^^ x) = step s v ^^^ step t x

/-- **Superposition**: the response to a sum of states and inputs is the sum of the responses. -/
theorem foldl_zipWith_xor (linear : Linear step) (s t : BitVec w) {vs ws : List (BitVec w)}
    (sameLength : vs.length = ws.length) :
    (List.zipWith (· ^^^ ·) vs ws).foldl step (s ^^^ t) = vs.foldl step s ^^^ ws.foldl step t := by
  induction vs generalizing s t ws with
  | nil =>
      obtain rfl := List.eq_nil_of_length_eq_zero sameLength.symm
      rfl
  | cons v vs ih =>
      cases ws with
      | nil => cases sameLength
      | cons x ws =>
          rw [List.zipWith_cons_cons, List.foldl_cons, linear]
          exact ih _ _ (Nat.succ.inj sameLength)

/-- The response to a state and inputs is the response to the state with no input, plus the
response to the inputs from the zero state. -/
theorem foldl_eq_xor (linear : Linear step) (s : BitVec w) (inputs : List (BitVec w)) :
    inputs.foldl step s =
      (List.replicate inputs.length 0#w).foldl step s ^^^ inputs.foldl step 0#w := by
  have none : List.zipWith (· ^^^ ·) (List.replicate inputs.length 0#w) inputs = inputs := by
    induction inputs with
    | nil => rfl
    | cons v inputs ih => simp [List.replicate_succ, ih]
  rw [← foldl_zipWith_xor linear s 0#w (by simp), none, BitVec.xor_zero]

end ShiftRegister
