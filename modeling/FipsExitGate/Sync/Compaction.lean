import FipsExitGate.Store.Deltas
import FipsExitGate.Lib.Machine

/-!
# Compaction and the order of the log

`CompactAuthzRevisions` deletes rows by `created_at`; `DeltaSince` reasons about
`rev` and takes for granted that the rows from `min(rev)` on are all there.  A
row's `created_at` is the `now()` of its transaction, fixed when the transaction
begins, while its `rev` is drawn later, under the advisory lock.  Transactions
waiting for the lock get it in any order, so a row may carry a larger `rev` and a
smaller `created_at` than another one.

A cutoff between the two times deletes the row with the larger `rev` and keeps
the other: the log has a hole, which `DeltaSince` does not see.  `NoStraddle`
excludes exactly that.

## Main results

* `holeFree_compact_iff` — a compaction of a log without holes leaves one without
  holes exactly when the cutoff does not fall between two such rows.
* `compaction_complete_iff` — a run is free of holes, and of deltas that omit a
  revision above the cursor, exactly when every compaction in it meets
  `NoStraddle`.
* `compaction_leaves_hole` — two overlapping recomputes for which it does not.
-/

namespace FipsExitGate.Compaction

open AuthzTables Machine

/-- The tables, the database clock, and the start times of the `RecomputeAuthz`
transactions that have begun and wait for the lock. -/
structure World where
  tables : AuthzTables
  clock : Time
  waiting : List Time

def World.initial (start : Time) : World := ⟨AuthzTables.empty, start, []⟩

inductive Event where
  /-- Time passes. -/
  | tick (elapsed : Nat)
  /-- A `RecomputeAuthz` transaction begins; its `now()` is fixed here. -/
  | begin
  /-- The `i`-th waiting transaction gets the lock, finds `desired`, and commits. -/
  | commit (i : Nat) (order : MapOrder Member) (desired : AList fun _ : Addr => AccountId)
  /-- The `i`-th waiting transaction gets the lock, draws `n` numbers and rolls back. -/
  | rollback (i : Nat) (n : Nat)
  /-- `CompactAuthzRevisions`. -/
  | compact (cutoff : Time)

/-- One event.  The lock is held from before the first revision number is drawn
until the commit, so that part of a recompute is one step. -/
def step (w : World) : Event → Option World
  | .tick elapsed => some { w with clock := w.clock + elapsed }
  | .begin => some { w with waiting := w.waiting ++ [w.clock] }
  | .commit i order desired =>
      match w.waiting[i]? with
      | none => none
      | some began =>
          some { w with
            tables := recompute order began desired w.tables
            waiting := w.waiting.eraseIdx i }
  | .rollback i n =>
      match w.waiting[i]? with
      | none => none
      | some _ => some { w with tables := w.tables.burn n, waiting := w.waiting.eraseIdx i }
  | .compact cutoff => some { w with tables := w.tables.compact cutoff }

/-! ## When a compaction cuts cleanly -/

/-- The cutoff separates no two rows below the newest one against their order in
the log: if it takes a row, it takes the rows with smaller numbers too. -/
def NoStraddle (t : AuthzTables) (cutoff : Time) : Prop :=
  ∀ r₁ ∈ t.revisions, ∀ r₂ ∈ t.revisions, r₁.rev < r₂.rev → r₂.rev < t.maxRev →
    r₂.createdAt < cutoff → r₁.createdAt < cutoff

/-- Two rows with one number are one row. -/
theorem eq_of_rev_eq {t : AuthzTables} (inv : LogInv t) {r₁ r₂ : Revision}
    (member₁ : r₁ ∈ t.appended) (member₂ : r₂ ∈ t.appended) (same : r₁.rev = r₂.rev) :
    r₁ = r₂ := by
  have distinct : (t.appended.map (·.rev)).Nodup :=
    List.pairwise_map.mpr (inv.sorted.imp fun h => ne_of_lt h)
  exact List.inj_on_of_nodup_map distinct member₁ member₂ same

theorem holeFree_compact {t : AuthzTables} (inv : LogInv t) (holeFree : HoleFree t)
    {cutoff : Time} (clean : NoStraddle t cutoff) : HoleFree (t.compact cutoff) := by
  have inv' := compact_logInv inv cutoff
  intro r
  refine ⟨fun present => ⟨revisions_subset inv' present, minRev_le present⟩, ?_⟩
  rintro ⟨member, isLate⟩
  -- the smallest surviving number is that of a survivor, at or before `r`
  obtain ⟨⟨least, survives, isLeast⟩, -⟩ := minRev_spec (revisions_ne_nil inv' member)
  obtain ⟨present, kept⟩ := mem_compact.mp survives
  have notLater : least.rev ≤ r.rev := isLeast ▸ isLate
  have here : r ∈ t.revisions :=
    (holeFree r).mpr ⟨member, (minRev_le present).trans notLater⟩
  refine mem_compact.mpr ⟨here, fun doomed => ?_⟩
  rcases lt_or_eq_of_le notLater with earlier | same
  · exact kept ⟨clean least present r here earlier doomed.2 doomed.1, earlier.trans doomed.2⟩
  · obtain rfl := eq_of_rev_eq inv (revisions_subset inv present) member same
    exact kept doomed

theorem noStraddle_of_holeFree {t : AuthzTables} (inv : LogInv t) {cutoff : Time}
    (holeFree : HoleFree (t.compact cutoff)) : NoStraddle t cutoff := by
  intro r₁ present₁ r₂ present₂ earlier notNewest old
  by_contra young
  have survives : r₁ ∈ (t.compact cutoff).revisions :=
    mem_compact.mpr ⟨present₁, fun doomed => young doomed.1⟩
  have isLate : (t.compact cutoff).minRev ≤ r₂.rev := (minRev_le survives).trans earlier.le
  have kept := (holeFree r₂).mpr ⟨revisions_subset inv present₂, isLate⟩
  exact (mem_compact.mp kept).2 ⟨old, notNewest⟩

/-- **A compaction leaves no hole exactly when the cutoff straddles no two rows.** -/
theorem holeFree_compact_iff {t : AuthzTables} (inv : LogInv t) (holeFree : HoleFree t)
    (cutoff : Time) : HoleFree (t.compact cutoff) ↔ NoStraddle t cutoff :=
  ⟨noStraddle_of_holeFree inv, holeFree_compact inv holeFree⟩

/-! ## Runs -/

/-- The condition on a step: a compaction straddles no two rows. -/
def Clean (w : World) : Event → Prop
  | .compact cutoff => NoStraddle w.tables cutoff
  | _ => True

/-- What an event can do to the tables. -/
theorem tables_of_step {w w' : World} {e : Event} (taken : step w e = some w') :
    w'.tables = w.tables ∨
      (∃ order began desired, w'.tables = recompute order began desired w.tables) ∨
      (∃ n, w'.tables = w.tables.burn n) ∨
      ∃ cutoff, e = .compact cutoff ∧ w'.tables = w.tables.compact cutoff := by
  cases e with
  | tick elapsed =>
      cases taken
      exact .inl rfl
  | begin =>
      cases taken
      exact .inl rfl
  | commit i order desired =>
      simp only [step] at taken
      split at taken <;> cases taken
      exact .inr (.inl ⟨order, _, desired, rfl⟩)
  | rollback i n =>
      simp only [step] at taken
      split at taken <;> cases taken
      exact .inr (.inr (.inl ⟨n, rfl⟩))
  | compact cutoff =>
      cases taken
      exact .inr (.inr (.inr ⟨cutoff, rfl, rfl⟩))

theorem step_logInv (w : World) (e : Event) (w' : World) (inv : LogInv w.tables)
    (taken : step w e = some w') : LogInv w'.tables := by
  obtain same | ⟨order, began, desired, eq⟩ | ⟨n, eq⟩ | ⟨cutoff, -, eq⟩ := tables_of_step taken
  · rwa [same]
  · exact eq ▸ recompute_logInv inv order began desired
  · exact eq ▸ burn_logInv inv n
  · exact eq ▸ compact_logInv inv cutoff

/-- A step that is not a straddling compaction keeps the log free of holes. -/
theorem step_healthy (w : World) (e : Event) (w' : World) (healthy : Healthy w.tables)
    (clean : Clean w e) (taken : step w e = some w') : Healthy w'.tables := by
  obtain same | ⟨order, began, desired, eq⟩ | ⟨n, eq⟩ | ⟨cutoff, rfl, eq⟩ := tables_of_step taken
  · rwa [same]
  · exact eq ▸ healthy.recompute order began desired
  · exact eq ▸ healthy.burn n
  · exact eq ▸ healthy_of_holeFree (compact_logInv healthy.log cutoff)
      (holeFree_compact healthy.log healthy.holeFree clean)

/-- No delta omits a revision above the cursor it answers. -/
def DeltasComplete (t : AuthzTables) : Prop :=
  ∀ clientRev order d, deltaSince order t clientRev = .ok d →
    ∀ r ∈ t.appended, clientRev < r.rev → r ∈ t.revisions

theorem deltasComplete_of_holeFree {t : AuthzTables} (inv : LogInv t) (holeFree : HoleFree t) :
    DeltasComplete t := by
  intro clientRev order d answered r member isAbove
  by_contra deleted
  rw [deltaSince_compacted inv holeFree member isAbove deleted order] at answered
  cases answered

/-- **Compaction leaves no hole, and no delta omits a revision above its cursor,
along exactly those runs in which no compaction straddles two rows.** -/
theorem compaction_complete_iff (start : Time) (es : List Event) :
    (∀ w₁, Visits step (.initial start) es w₁ → HoleFree w₁.tables ∧ DeltasComplete w₁.tables) ↔
      Meets step Clean (.initial start) es := by
  constructor
  · intro complete es₁ e es₂ w₁ split reached₁
    cases e with
    | compact cutoff =>
        have inv₁ : LogInv w₁.tables := run_invariant step_logInv es₁ empty_logInv reached₁
        have after : Visits step (.initial start) es
            { w₁ with tables := w₁.tables.compact cutoff } :=
          ⟨es₁ ++ [.compact cutoff], es₂, by simp [split], by rw [run_concat, reached₁]; rfl⟩
        -- the state right after the compaction is one of the run's
        exact noStraddle_of_holeFree inv₁ (complete _ after).1
    | _ => exact trivial
  · intro clean w₁ visited
    have healthy : Healthy w₁.tables := clean.visits_invariant step_healthy empty_healthy visited
    exact ⟨healthy.holeFree, deltasComplete_of_holeFree healthy.log healthy.holeFree⟩

/-- Two overlapping recomputes: the one that began first gets the lock second.
Its row has the larger number and the smaller `created_at`, and after one more
change a cutoff between the two start times deletes it alone. -/
def overlapping : List Event :=
  [.begin, .tick 10, .begin,
    .commit 1 .id (AList.singleton firstAddr 7), .commit 0 .id ∅,
    .tick 10, .begin, .commit 0 .id (AList.singleton secondAddr 8), .compact 5]

/-- The removal of the first address is revision 2; after the compaction a client
at revision 1 is handed a delta to revision 3 that does not have it. -/
theorem compaction_leaves_hole :
    ∃ w, run step (.initial 0) overlapping = some w ∧ ¬ HoleFree w.tables ∧
      ∃ d, deltaSince .id w.tables 1 = .ok d ∧ d.del = [] ∧ d.rev = 3 ∧
        ∃ r ∈ w.tables.appended, r.rev = 2 ∧ r.op = .del ∧ r.fipsAddr = firstAddr ∧
          r ∉ w.tables.revisions := by
  refine ⟨_, rfl, fun holeFree => ?_, _, rfl, by decide, by decide,
    ⟨2, .del, firstAddr, 7, 0⟩, by decide, rfl, rfl, rfl, by decide⟩
  have present := (holeFree ⟨2, .del, firstAddr, 7, 0⟩).mpr ⟨by decide, by decide⟩
  revert present
  decide

end FipsExitGate.Compaction
