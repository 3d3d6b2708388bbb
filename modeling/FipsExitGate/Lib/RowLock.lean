import Mathlib.Data.Option.Basic
import Mathlib.Logic.Function.Basic

/-!
# Row locks

Transactions that lock a row each, as `SELECT … FOR UPDATE` or the insertion of a key does, and hold
it until they end.  A table of locks says who holds a row; what a transaction relies on is kept in
its phase.  `Held` ties the two together: a phase that relies on a row has it locked.  Then no
other transaction relies on the same row (`Held.unique`), and a row that is free is relied on by
none (`Held.unheld`).

## Main definitions

* `Held` — every phase has locked the row it relies on
-/

namespace RowLock

universe u v w

variable {κ : Type u} {τ : Type v} {σ : Type w}

/-- Every transaction has locked the row that its phase relies on. -/
def Held (locks : κ → Option τ) (key : σ → Option κ) (phases : τ → σ) : Prop :=
  ∀ t k, key (phases t) = some k → locks k = some t

/-- The locks without that of the given row, if any. -/
def free [DecidableEq κ] (locks : κ → Option τ) : Option κ → κ → Option τ
  | none => locks
  | some k => Function.update locks k none

namespace Held

variable {locks : κ → Option τ} {key : σ → Option κ} {phases : τ → σ}

/-- Two transactions do not rely on one row. -/
theorem unique (held : Held locks key phases) {t t' : τ} {k : κ} (first : key (phases t) = some k)
    (second : key (phases t') = some k) : t = t' :=
  Option.some.inj ((held t k first).symm.trans (held t' k second))

/-- Nobody relies on a row that is free. -/
theorem unheld (held : Held locks key phases) {k : κ} (free : locks k = none) (t : τ) :
    key (phases t) ≠ some k := by
  intro isIts
  have locked := held t k isIts
  rw [free] at locked
  cases locked

variable [DecidableEq τ]

/-- A transaction goes on and relies on nothing else than before. -/
theorem keep (held : Held locks key phases) {t : τ} {p : σ}
    (sub : ∀ k, key p = some k → key (phases t) = some k) :
    Held locks key (Function.update phases t p) := by
  intro t' k' relies
  by_cases same : t' = t
  · subst same
    rw [Function.update_self] at relies
    exact held t' k' (sub k' relies)
  · rw [Function.update_of_ne same] at relies
    exact held t' k' relies

variable [DecidableEq κ]

/-- A transaction locks a row that is free. -/
theorem take (held : Held locks key phases) {t : τ} {k : κ} {p : σ} (free : locks k = none)
    (isIts : key p = some k) :
    Held (Function.update locks k (some t)) key (Function.update phases t p) := by
  intro t' k' relies
  by_cases same : t' = t
  · subst same
    rw [Function.update_self, isIts] at relies
    cases relies
    exact Function.update_self ..
  · rw [Function.update_of_ne same] at relies
    have other : k' ≠ k := fun isIt => held.unheld free t' (isIt ▸ relies)
    rw [Function.update_of_ne other]
    exact held t' k' relies

/-- A transaction ends and gives what it has locked free. -/
theorem release (held : Held locks key phases) {t : τ} {p : σ} (ended : key p = none) :
    Held (free locks (key (phases t))) key (Function.update phases t p) := by
  intro t' k' relies
  by_cases same : t' = t
  · subst same
    rw [Function.update_self, ended] at relies
    cases relies
  · rw [Function.update_of_ne same] at relies
    cases locked : key (phases t) with
    | none => exact held t' k' relies
    | some k =>
        have other : k' ≠ k := fun isIt => same (held.unique (isIt ▸ relies) locked)
        show Function.update locks k none k' = some t'
        rw [Function.update_of_ne other]
        exact held t' k' relies

end Held

end RowLock
