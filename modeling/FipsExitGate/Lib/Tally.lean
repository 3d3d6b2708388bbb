import Mathlib.Algebra.BigOperators.Group.List.Basic
import Mathlib.Algebra.Group.Basic
import Mathlib.Data.List.AList

/-!
# Tallies

A tally is a map from keys to amounts, to which amounts are added one by one; a key that is
not there yet counts zero.  What a tally has in total, over all keys or over some of them, grows
by exactly what is added.
-/

namespace Tally

universe u v

variable {κ : Type u} [DecidableEq κ] {M : Type v} [AddCommMonoid M]

/-- The amounts under the keys with `p`. -/
def total (p : κ → Bool) (m : AList fun _ : κ => M) : M :=
  ((m.entries.filter fun entry => p entry.1).map fun entry => entry.2).sum

/-- What is erased is what was there. -/
theorem sum_kerase (p : κ → Bool) (k : κ) (entries : List (Σ _ : κ, M)) :
    (((entries.kerase k).filter fun entry => p entry.1).map fun entry => entry.2).sum +
        (if p k then (entries.dlookup k).getD 0 else 0) =
      ((entries.filter fun entry => p entry.1).map fun entry => entry.2).sum := by
  induction entries with
  | nil => simp
  | cons entry entries ih =>
      by_cases isIt : k = entry.1
      · subst isIt
        rw [List.kerase_cons_eq rfl, List.dlookup_cons_eq]
        by_cases hit : p entry.1 = true
        · simp [hit, add_comm]
        · simp [hit]
      · rw [List.kerase_cons_ne isIt, List.dlookup_cons_ne _ _ isIt]
        by_cases hit : p entry.1 = true
        · simp [hit, ← ih, add_assoc]
        · simp [hit, ← ih]

/-- **Adding to a key adds to every total that has the key.** -/
theorem total_insert (p : κ → Bool) (m : AList fun _ : κ => M) (k : κ) (x : M) :
    total p (m.insert k ((m.lookup k).getD 0 + x)) = total p m + if p k then x else 0 := by
  have erased := sum_kerase p k m.entries
  unfold total
  rw [AList.entries_insert, ← erased]
  by_cases hit : p k = true
  · simp only [hit, if_true, List.filter_cons_of_pos, List.map_cons, List.sum_cons, AList.lookup]
    rw [add_right_comm, add_comm (List.sum _)]
  · simp [hit]

end Tally
