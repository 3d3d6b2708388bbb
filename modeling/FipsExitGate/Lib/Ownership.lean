import Mathlib.Data.Finset.Filter
import Mathlib.Data.Finset.SDiff

/-!
# Exclusive ownership

Owners hold goods, and a good has one owner at a time: to assign goods to an owner takes them away
from every other one.  A list of changes works toward a target if each leaves its own owner as the
target has it.

When the target is disjoint, such changes do not get in each other's way.  Whatever their order,
and whichever of them are left out, the owners they touch end up as in the target
(`applyAll_of_touched`), owners that are already there stay (`applyAll_of_settled`), and another
owner loses exactly what the changes assign (`applyAll_of_untouched`).
-/

namespace Ownership

universe u v

variable {κ : Type u} {ρ : Type v} [DecidableEq κ] [DecidableEq ρ]

/-- What each owner holds; `none` for those that do not exist. -/
abbrev Holdings (κ : Type u) (ρ : Type v) := κ → Option (Finset ρ)

/-- A change to one owner. -/
inductive Change (κ : Type u) (ρ : Type v) where
  /-- The owner holds these goods, and nobody else does. -/
  | assign (owner : κ) (goods : Finset ρ)
  | remove (owner : κ)

/-- Whom a change is about. -/
def Change.owner : Change κ ρ → κ
  | .assign owner _ => owner
  | .remove owner => owner

/-- What its owner holds then. -/
def Change.outcome : Change κ ρ → Option (Finset ρ)
  | .assign _ goods => some goods
  | .remove _ => none

/-- What it takes away from the others. -/
def Change.taken : Change κ ρ → Finset ρ
  | .assign _ goods => goods
  | .remove _ => ∅

/-- The effect of a change. -/
def Change.apply (held : Holdings κ ρ) (c : Change κ ρ) : Holdings κ ρ := fun k =>
  if k = c.owner then c.outcome else (held k).map (· \ c.taken)

/-- The effect of changes, one after the other. -/
def applyAll (held : Holdings κ ρ) (changes : List (Change κ ρ)) : Holdings κ ρ :=
  changes.foldl Change.apply held

theorem applyAll_concat (held : Holdings κ ρ) (changes : List (Change κ ρ)) (c : Change κ ρ) :
    applyAll held (changes ++ [c]) = c.apply (applyAll held changes) :=
  List.foldl_concat ..

/-- No good is in the target twice. -/
def DisjointTarget (target : Holdings κ ρ) : Prop :=
  ∀ j k goods goods', j ≠ k → target j = some goods → target k = some goods' → Disjoint goods goods'

/-- The changes work toward the target. -/
def Toward (target : Holdings κ ρ) (changes : List (Change κ ρ)) : Prop :=
  ∀ c ∈ changes, c.outcome = target c.owner

variable {target held : Holdings κ ρ} {changes : List (Change κ ρ)} {k : κ}

omit [DecidableEq κ] in
/-- A change toward the target takes nothing from what the target gives to another owner. -/
theorem target_sdiff_taken (disjoint : DisjointTarget target) {c : Change κ ρ}
    (aims : c.outcome = target c.owner) (other : k ≠ c.owner) :
    (target k).map (· \ c.taken) = target k := by
  cases isTarget : target k with
  | none => rfl
  | some goods =>
      cases c with
      | remove owner => simp [Change.taken]
      | assign owner goods' =>
          have apart := disjoint k owner goods goods' other isTarget aims.symm
          simp [Change.taken, apart.sdiff_eq_left]

/-- **Owners that are where the target has them stay there.** -/
theorem applyAll_of_settled (disjoint : DisjointTarget target) (toward : Toward target changes)
    (settled : held k = target k) : applyAll held changes k = target k := by
  induction changes using List.reverseRecOn with
  | nil => exact settled
  | append_singleton changes c ih =>
      have aims := toward c (by simp)
      rw [applyAll_concat, Change.apply]
      split
      · next isOwner => rw [aims, isOwner]
      · next other =>
          rw [ih fun c' member => toward c' (by simp [member])]
          exact target_sdiff_taken disjoint aims other

/-- **Owners that are touched end up where the target has them**, whatever comes before or after. -/
theorem applyAll_of_touched (disjoint : DisjointTarget target) (toward : Toward target changes)
    {c : Change κ ρ} (member : c ∈ changes) :
    applyAll held changes c.owner = target c.owner := by
  obtain ⟨before, after, rfl⟩ := List.append_of_mem member
  have aims := toward c member
  have split : applyAll held (before ++ c :: after) =
      applyAll (c.apply (applyAll held before)) after := by
    simp [applyAll]
  rw [split]
  refine applyAll_of_settled disjoint (fun c' later => toward c' (by simp [later])) ?_
  rw [Change.apply, if_pos rfl, aims]

/-- **Other owners lose exactly what the changes assign.** -/
theorem applyAll_of_untouched (untouched : ∀ c ∈ changes, c.owner ≠ k) :
    applyAll held changes k =
      (held k).map fun goods => goods.filter fun r => ∀ c ∈ changes, r ∉ c.taken := by
  induction changes using List.reverseRecOn with
  | nil =>
      cases isHeld : held k with
      | none => simp [applyAll, isHeld]
      | some goods => simp [applyAll, isHeld]
  | append_singleton changes c ih =>
      rw [applyAll_concat, Change.apply, if_neg fun isOwner => untouched c (by simp) isOwner.symm,
        ih fun c' member => untouched c' (by simp [member]), Option.map_map]
      congr 1
      funext goods
      ext r
      simp only [Function.comp_apply, Finset.mem_sdiff, Finset.mem_filter, List.mem_append,
        List.mem_singleton]
      constructor
      · rintro ⟨⟨holds, free⟩, notTaken⟩
        refine ⟨holds, fun c' member => ?_⟩
        rcases member with earlier | rfl
        · exact free c' earlier
        · exact notTaken
      · rintro ⟨holds, free⟩
        exact ⟨⟨holds, fun c' member => free c' (.inl member)⟩, free c (.inr rfl)⟩

end Ownership
