import Mathlib.Algebra.BigOperators.Group.List.Basic
import Mathlib.Data.List.Nodup
import Mathlib.Order.Lattice

/-!
# Tables

A table is a list of rows.  `updateWhere` and `deleteWhere` are the statements
`UPDATE … WHERE` and `DELETE … WHERE`; `upsert` is `INSERT … ON CONFLICT DO UPDATE`.
The lemmas say which rows a statement leaves, and that a statement that does not
touch a key column keeps the keys.
-/

namespace Table

universe u v

variable {α : Type u} {κ : Type v}

/-- `UPDATE … SET … WHERE p`. -/
def updateWhere (p : α → Bool) (f : α → α) (rows : List α) : List α :=
  rows.map fun r => if p r then f r else r

/-- `DELETE … WHERE p`. -/
def deleteWhere (p : α → Bool) (rows : List α) : List α :=
  rows.filter fun r => !p r

/-- `INSERT … ON CONFLICT … DO UPDATE`: `p` tells the conflicting row. -/
def upsert (p : α → Bool) (new : α) (f : α → α) (rows : List α) : List α :=
  if rows.any p then updateWhere p f rows else rows ++ [new]

theorem mem_updateWhere {p : α → Bool} {f : α → α} {rows : List α} {r : α} :
    r ∈ updateWhere p f rows ↔
      (∃ r₀ ∈ rows, p r₀ = true ∧ f r₀ = r) ∨ (r ∈ rows ∧ p r = false) := by
  simp only [updateWhere, List.mem_map]
  constructor
  · rintro ⟨r₀, member, rfl⟩
    by_cases hit : p r₀ = true
    · exact .inl ⟨r₀, member, hit, by simp [hit]⟩
    · exact .inr ⟨by simpa [hit] using member, by simp [hit]⟩
  · rintro (⟨r₀, member, hit, rfl⟩ | ⟨member, miss⟩)
    · exact ⟨r₀, member, by simp [hit]⟩
    · exact ⟨r, member, by simp [miss]⟩

theorem mem_deleteWhere {p : α → Bool} {rows : List α} {r : α} :
    r ∈ deleteWhere p rows ↔ r ∈ rows ∧ p r = false := by
  simp [deleteWhere]

/-- A row after an upsert: a conflicting one rewritten, an old one, or the new one. -/
theorem mem_upsert {p : α → Bool} {f : α → α} {rows : List α} {new r : α}
    (member : r ∈ upsert p new f rows) :
    (∃ r₀ ∈ rows, p r₀ = true ∧ f r₀ = r) ∨ r ∈ rows ∨ r = new := by
  unfold upsert at member
  split at member
  · exact (mem_updateWhere.mp member).imp id fun old => .inl old.1
  · exact .inr (by simpa using member)

/-- An update leaves the row it makes of each row. -/
theorem mem_updateWhere_of_mem {p : α → Bool} {f : α → α} {rows : List α} {r : α}
    (member : r ∈ rows) : (if p r then f r else r) ∈ updateWhere p f rows :=
  List.mem_map_of_mem member

/-- An update that leaves a column alone leaves the column's values. -/
theorem map_updateWhere {p : α → Bool} {f : α → α} {key : α → κ} (same : ∀ r, key (f r) = key r)
    (rows : List α) : (updateWhere p f rows).map key = rows.map key := by
  simp only [updateWhere, List.map_map]
  refine List.map_congr_left fun r _ => ?_
  by_cases hit : p r = true
  · simp [hit, same]
  · simp [hit]

theorem nodup_updateWhere {p : α → Bool} {f : α → α} {key : α → κ} {rows : List α}
    (same : ∀ r, key (f r) = key r) (nodup : (rows.map key).Nodup) :
    ((updateWhere p f rows).map key).Nodup := by
  rwa [map_updateWhere same]

/-- What holds of every row still holds of every row. -/
theorem forall_updateWhere {p : α → Bool} {f : α → α} {rows : List α} {P : α → Prop}
    (hit : ∀ r ∈ rows, p r = true → P (f r)) (miss : ∀ r ∈ rows, p r = false → P r) :
    ∀ r ∈ updateWhere p f rows, P r := by
  intro r member
  rcases mem_updateWhere.mp member with ⟨r₀, row, isHit, rfl⟩ | ⟨row, isMiss⟩
  · exact hit r₀ row isHit
  · exact miss r row isMiss

/-- An update of the row that was inserted last. -/
theorem updateWhere_last {p : α → Bool} {f : α → α} {rows : List α} {new : α}
    (others : ∀ r ∈ rows, p r = false) (hit : p new = true) :
    updateWhere p f (rows ++ [new]) = rows ++ [f new] := by
  have same : (rows.map fun r => if p r then f r else r) = rows :=
    (List.map_congr_left fun r member => by simp [others r member]).trans (List.map_id rows)
  simp [updateWhere, List.map_append, same, hit]

@[simp] theorem length_updateWhere (p : α → Bool) (f : α → α) (rows : List α) :
    (updateWhere p f rows).length = rows.length := by
  simp [updateWhere]

/-- An update and a selection it does not affect commute. -/
theorem filter_updateWhere {p q : α → Bool} {f : α → α} (same : ∀ r, q (f r) = q r) (rows : List α) :
    (updateWhere p f rows).filter q = updateWhere p f (rows.filter q) := by
  have blind : (q ∘ fun r => if p r = true then f r else r) = q := by
    funext r
    by_cases hit : p r = true
    · simp [hit, same]
    · simp [hit]
  rw [updateWhere, List.filter_map, blind]
  rfl

/-- A row with a new key keeps the keys distinct. -/
theorem nodup_append_singleton {key : α → κ} {rows : List α} {new : α}
    (nodup : (rows.map key).Nodup) (fresh : ∀ r ∈ rows, key r ≠ key new) :
    ((rows ++ [new]).map key).Nodup := by
  rw [List.map_append, List.nodup_append]
  refine ⟨nodup, by simp, ?_⟩
  rintro k₁ member k₂ isNew rfl
  obtain ⟨r, present, rfl⟩ := List.mem_map.mp member
  exact fresh r present (by simpa using isNew)

/-- Rows with one key are one row. -/
theorem eq_of_key_eq {key : α → κ} {rows : List α} (nodup : (rows.map key).Nodup) {r₁ r₂ : α}
    (member₁ : r₁ ∈ rows) (member₂ : r₂ ∈ rows) (same : key r₁ = key r₂) : r₁ = r₂ :=
  List.inj_on_of_nodup_map nodup member₁ member₂ same

/-- How many rows a statement can add to a selection: as many as it touches. -/
theorem countP_updateWhere_le (p q : α → Bool) (f : α → α) (rows : List α) :
    (updateWhere p f rows).countP q ≤ rows.countP q + rows.countP p := by
  induction rows with
  | nil => simp [updateWhere]
  | cons r rows ih =>
      simp only [updateWhere, List.map_cons, List.countP_cons] at ih ⊢
      by_cases hit : p r = true
      · rw [if_pos hit, if_pos hit]
        split <;> split <;> omega
      · rw [if_neg hit, if_neg hit]
        omega

/-- A statement that takes the rows it touches out of a selection. -/
theorem countP_updateWhere_lt {p q : α → Bool} {f : α → α} {rows : List α} {r : α}
    (leaves : ∀ r ∈ rows, p r = true → q (f r) = false) (member : r ∈ rows) (hit : p r = true)
    (selected : q r = true) : (updateWhere p f rows).countP q < rows.countP q := by
  have le : ∀ rows : List α, (∀ r ∈ rows, p r = true → q (f r) = false) →
      (updateWhere p f rows).countP q ≤ rows.countP q := by
    intro rows leaves
    rw [updateWhere, List.countP_map]
    refine List.countP_mono_left fun r isIn isSelected => ?_
    by_cases hit : p r = true
    · simp [hit, leaves r isIn hit] at isSelected
    · simpa [hit] using isSelected
  obtain ⟨front, back, rfl⟩ := List.append_of_mem member
  have split : updateWhere p f (front ++ r :: back) =
      updateWhere p f front ++ f r :: updateWhere p f back := by
    simp [updateWhere, hit]
  have front_le := le front fun r isIn => leaves r (by simp [isIn])
  have back_le := le back fun r isIn => leaves r (by simp [isIn])
  rw [split, List.countP_append, List.countP_append, List.countP_cons_of_pos selected,
    List.countP_cons_of_neg (by simp [leaves r member hit])]
  omega

/-- A selection that can only hold one row. -/
theorem countP_le_one {p : α → Bool} {rows : List α} (nodup : rows.Nodup)
    (unique : ∀ r₁ ∈ rows, ∀ r₂ ∈ rows, p r₁ = true → p r₂ = true → r₁ = r₂) :
    rows.countP p ≤ 1 := by
  rw [List.countP_eq_length_filter]
  have apart := nodup.filter p
  match selected : rows.filter p with
  | [] => simp
  | [_] => simp
  | r₁ :: r₂ :: rest =>
      have first := List.mem_filter.mp (selected ▸ List.mem_cons_self : r₁ ∈ rows.filter p)
      have second := List.mem_filter.mp
        (selected ▸ List.mem_cons_of_mem _ List.mem_cons_self : r₂ ∈ rows.filter p)
      rw [selected, unique r₁ first.1 r₂ second.1 first.2 second.2] at apart
      simp at apart

/-- `ORDER BY f ASC LIMIT 1` returns a row with the least value. -/
theorem le_of_minOn? [LinearOrder κ] {f : α → κ} {rows : List α} {r : α}
    (found : rows.minOn? f = some r) (r' : α) (member : r' ∈ rows) : f r ≤ f r' := by
  have least := List.apply_get_minOn?_le_of_mem (f := f) member
  simpa only [found, Option.get_some] using least

/-- `ORDER BY f DESC LIMIT 1` returns the row that no other one reaches. -/
theorem maxOn?_eq_of_unique [LinearOrder κ] {f : α → κ} {rows : List α} {r : α}
    (member : r ∈ rows) (unique : ∀ r' ∈ rows, f r ≤ f r' → r' = r) : rows.maxOn? f = some r := by
  have greatest := List.le_apply_get_maxOn?_of_mem (f := f) member
  cases found : rows.maxOn? f with
  | none =>
      have isSome := List.isSome_maxOn?_of_mem (f := f) member
      rw [found] at isSome
      cases isSome
  | some r' =>
      simp only [found, Option.get_some] at greatest
      rw [unique r' (List.maxOn?_mem found) greatest]

/-- A search finds the only row it can find. -/
theorem find?_eq_of_unique {p : α → Bool} {rows : List α} {r : α} (member : r ∈ rows)
    (hit : p r = true) (unique : ∀ r' ∈ rows, p r' = true → r' = r) : rows.find? p = some r := by
  cases found : rows.find? p with
  | none => exact absurd hit (List.find?_eq_none.mp found r member)
  | some r' => rw [unique r' (List.mem_of_find?_eq_some found) (List.find?_some found)]

/-- A query that can fail on a row, and fails on none. -/
theorem mapM_eq_some_map {β : Type u} {f : α → Option β} {g : α → β} {xs : List α} :
    xs.mapM f = some (xs.map g) ↔ ∀ x ∈ xs, f x = some (g x) := by
  induction xs with
  | nil => simp
  | cons x xs ih =>
      rw [List.mapM_cons, List.map_cons, List.forall_mem_cons, ← ih]
      cases f x <;> cases xs.mapM f <;> simp

/-- A sum over a selection is the sum over all rows if the others count nothing. -/
theorem sum_map_filter {M : Type v} [AddMonoid M] {p : α → Bool} {f : α → M} {rows : List α}
    (zero : ∀ r ∈ rows, p r = false → f r = 0) :
    ((rows.filter p).map f).sum = (rows.map f).sum := by
  induction rows with
  | nil => rfl
  | cons r rows ih =>
      have rest := ih fun r' member => zero r' (List.mem_cons_of_mem _ member)
      rw [List.map_cons, List.sum_cons, ← rest]
      by_cases hit : p r = true
      · rw [List.filter_cons_of_pos hit, List.map_cons, List.sum_cons]
      · rw [List.filter_cons_of_neg hit, zero r List.mem_cons_self (Bool.not_eq_true _ ▸ hit),
          zero_add]

/-- A sum over a selection, as a sum over all rows. -/
theorem sum_map_filter_eq {M : Type v} [AddMonoid M] (p : α → Bool) (f : α → M) (rows : List α) :
    ((rows.filter p).map f).sum = (rows.map fun r => if p r then f r else 0).sum := by
  have counted : (rows.filter p).map f = (rows.filter p).map fun r => if p r then f r else 0 :=
    List.map_congr_left fun r isIn => (if_pos (List.mem_filter.mp isIn).2).symm
  rw [counted, sum_map_filter]
  intro r _ miss
  rw [miss]
  rfl

/-- The one row with a key, as a sum over all rows. -/
theorem sum_map_ite_key {κ : Type u} [DecidableEq κ] {M : Type v} [AddMonoid M] {key : α → κ}
    {rows : List α} (keys : (rows.map key).Nodup) {r : α} (isRow : r ∈ rows) (f : α → M) :
    (rows.map fun r' => if key r' = key r then f r' else 0).sum = f r := by
  induction rows with
  | nil => cases isRow
  | cons r' rows ih =>
      rw [List.map_cons, List.nodup_cons] at keys
      rw [List.map_cons, List.sum_cons]
      rcases List.mem_cons.mp isRow with rfl | later
      · have none : (rows.map fun r' => if key r' = key r then f r' else 0).sum = 0 := by
          refine List.sum_eq_zero fun x isIn => ?_
          obtain ⟨r', isRow', rfl⟩ := List.mem_map.mp isIn
          refine if_neg fun same => keys.1 ?_
          rw [← same]
          exact List.mem_map_of_mem isRow'
        rw [if_pos rfl, none, add_zero]
      · have differs : key r' ≠ key r := by
          intro same
          rw [same] at keys
          exact keys.1 (List.mem_map_of_mem later)
        rw [if_neg differs, zero_add, ih keys.2 later]

/-- A deletion takes away what the deleted rows count. -/
theorem sum_deleteWhere {M : Type v} [AddCommMonoid M] (p : α → Bool) (f : α → M) (rows : List α) :
    ((deleteWhere p rows).map f).sum + ((rows.filter p).map f).sum = (rows.map f).sum := by
  rw [deleteWhere, sum_map_filter_eq, sum_map_filter_eq, ← List.sum_map_add]
  congr 1
  refine List.map_congr_left fun r _ => ?_
  by_cases hit : p r = true
  · simp [hit]
  · simp [hit]

end Table
