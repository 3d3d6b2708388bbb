import Mathlib.Algebra.Order.BigOperators.Group.List
import Mathlib.Algebra.Order.Group.MinMax

/-!
# Greedy allocations

An amount is taken from slots of limited capacity, from slots with smaller keys first.
`Greedy` states what such an allocation is, without saying how it is computed: nothing is
taken beyond a capacity, as much as possible is taken in total, and a slot is touched only
after the slots before it are exhausted.

Two facts make the notion useful.  Allocations can be taken in parts (`Greedy.add`), and where
the keys are distinct there is only one (`Greedy.unique`); so however an amount is split, and
in whatever order the parts are taken, the slots end up the same.
-/

namespace Allocation

universe u v w

variable {ι : Type u} {κ : Type v} {M : Type w} [LinearOrder κ] [AddCommGroup M] [LinearOrder M]

/-- What `amount` takes from the slots is an allocation of `total`. -/
structure Greedy (slots : List ι) (key : ι → κ) (capacity : ι → M) (total : M)
    (amount : ι → M) : Prop where
  nonneg : ∀ i ∈ slots, 0 ≤ amount i
  le_capacity : ∀ i ∈ slots, amount i ≤ capacity i
  sum_eq : (slots.map amount).sum = min total (slots.map capacity).sum
  exhausted : ∀ i ∈ slots, ∀ j ∈ slots, key i < key j → 0 < amount j → amount i = capacity i

variable {slots : List ι} {key : ι → κ} {capacity : ι → M} {total total' : M}
  {amount amount' : ι → M}

/-- Slots seen through a function. -/
theorem greedy_map {ι' : Type u} {f : ι' → ι} {slots : List ι'} :
    Greedy (slots.map f) key capacity total amount ↔
      Greedy slots (key ∘ f) (capacity ∘ f) total (amount ∘ f) := by
  constructor
  · rintro ⟨nonneg, le, sum, exhausted⟩
    rw [List.forall_mem_map] at nonneg le exhausted
    rw [List.map_map, List.map_map] at sum
    exact ⟨nonneg, le, sum, fun i member => List.forall_mem_map.mp (exhausted i member)⟩
  · rintro ⟨nonneg, le, sum, exhausted⟩
    refine ⟨List.forall_mem_map.mpr nonneg, List.forall_mem_map.mpr le, ?_,
      List.forall_mem_map.mpr fun i member => List.forall_mem_map.mpr (exhausted i member)⟩
    rwa [List.map_map, List.map_map]

/-- Only the slots matter. -/
theorem Greedy.congr {key' : ι → κ} {capacity' : ι → M}
    (h : Greedy slots key capacity total amount) (keys : ∀ i ∈ slots, key i = key' i)
    (capacities : ∀ i ∈ slots, capacity i = capacity' i)
    (amounts : ∀ i ∈ slots, amount i = amount' i) :
    Greedy slots key' capacity' total amount' where
  nonneg i member := amounts i member ▸ h.nonneg i member
  le_capacity i member := by
    rw [← amounts i member, ← capacities i member]
    exact h.le_capacity i member
  sum_eq := by
    rw [← List.map_congr_left amounts, ← List.map_congr_left capacities]
    exact h.sum_eq
  exhausted i isIn j isIn' before drawn := by
    rw [← keys i isIn, ← keys j isIn'] at before
    rw [← amounts j isIn'] at drawn
    rw [← amounts i isIn, ← capacities i isIn]
    exact h.exhausted i isIn j isIn' before drawn

variable [IsOrderedAddMonoid M]

/-- Nothing is an allocation where there is nothing to take, or nothing to take it from. -/
theorem greedy_zero (nonneg : ∀ i ∈ slots, 0 ≤ capacity i)
    (nothing : total = 0 ∨ 0 ≤ total ∧ ∀ i ∈ slots, capacity i = 0) :
    Greedy slots key capacity total fun _ => 0 where
  nonneg _ _ := le_rfl
  le_capacity := nonneg
  sum_eq := by
    rw [List.sum_map_zero]
    rcases nothing with rfl | ⟨le, empty⟩
    · exact (min_eq_left (List.sum_nonneg (List.forall_mem_map.mpr nonneg))).symm
    · rw [List.map_congr_left empty, List.sum_map_zero, min_eq_right le]
  exhausted _ _ _ _ _ drawn := absurd drawn (lt_irrefl 0)

/-- Taking a part, and then the rest from what is left. -/
theorem min_add_min_sub {a b c : M} (nonneg : 0 ≤ b) :
    min a c + min b (c - min a c) = min (a + b) c := by
  rcases le_total a c with le | le
  · rw [min_eq_left le, ← min_add_add_left, add_sub_cancel]
  · rw [min_eq_right le, sub_self, min_eq_right nonneg, add_zero,
      min_eq_right (le_add_of_le_of_nonneg le nonneg)]

/-- **An allocation in two parts.**  The second part is taken from what the first one left. -/
theorem Greedy.add (nonneg : 0 ≤ total') (first : Greedy slots key capacity total amount)
    (second : Greedy slots key (fun i => capacity i - amount i) total' amount') :
    Greedy slots key capacity (total + total') (fun i => amount i + amount' i) where
  nonneg i member := add_nonneg (first.nonneg i member) (second.nonneg i member)
  le_capacity i member := le_sub_iff_add_le'.mp (second.le_capacity i member)
  sum_eq := by
    have parts : (slots.map amount).sum + (slots.map fun i => capacity i - amount i).sum =
        (slots.map capacity).sum := by
      rw [← List.sum_map_add]
      simp only [add_sub_cancel]
    rw [List.sum_map_add, second.sum_eq, eq_sub_of_add_eq' parts, first.sum_eq,
      min_add_min_sub nonneg]
  exhausted i isIn j isIn' before drawn := by
    -- the slot behind is touched by one of the parts, which exhausts the slot before it
    rcases (first.nonneg j isIn').eq_or_lt with untouched | touched
    · rw [← untouched, zero_add] at drawn
      rw [second.exhausted i isIn j isIn' before drawn, add_sub_cancel]
    · have full := first.exhausted i isIn j isIn' before touched
      have none : amount' i = 0 := by
        refine le_antisymm ?_ (second.nonneg i isIn)
        have le := second.le_capacity i isIn
        rwa [full, sub_self] at le
      rw [full, none, add_zero]

/-- **Distinct keys leave no choice.** -/
theorem Greedy.unique (distinct : ∀ i ∈ slots, ∀ j ∈ slots, key i = key j → i = j)
    (h : Greedy slots key capacity total amount) (h' : Greedy slots key capacity total amount') :
    ∀ i ∈ slots, amount i = amount' i := by
  -- if one takes more from a slot, the other takes more from another one, and whichever of
  -- the two slots comes first is not exhausted though the other one is touched
  have notLess : ∀ {a a' : ι → M}, Greedy slots key capacity total a →
      Greedy slots key capacity total a' → ∀ i ∈ slots, ¬ a i < a' i := by
    intro a a' h h' i isIn less
    have same : (slots.map a).sum = (slots.map a').sum := h.sum_eq.trans h'.sum_eq.symm
    obtain ⟨j, isIn', more⟩ : ∃ j ∈ slots, a' j < a j := by
      by_contra none
      push Not at none
      exact absurd same (List.sum_lt_sum a a' none ⟨i, isIn, less⟩).ne
    rcases lt_trichotomy (key i) (key j) with before | equal | after
    · have full := h.exhausted i isIn j isIn' before ((h'.nonneg j isIn').trans_lt more)
      exact absurd (h'.le_capacity i isIn) (not_le.mpr (full ▸ less))
    · obtain rfl := distinct i isIn j isIn' equal
      exact lt_asymm less more
    · have full := h'.exhausted j isIn' i isIn after ((h.nonneg i isIn).trans_lt less)
      exact absurd (h.le_capacity j isIn') (not_le.mpr (full ▸ more))
  intro i isIn
  exact le_antisymm (not_lt.mp (notLess h' h i isIn)) (not_lt.mp (notLess h h' i isIn))

end Allocation
